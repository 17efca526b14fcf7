import SoildTunnel.Engine.Theorems.Paths
import SoildTunnel.Rust.Pattern

-- Which teams are found again by the names of their files.
namespace Engine.Paths

open Rust ZeroTrust List Delimited Option

-- Where a file is, for a system that separates components by slashes only.
def inComponent (c : Char) : Bool :=
  c ≠ '/'

def directory (path : Text) : Text :=
  if path.rdropWhile inComponent = [] then ".".toList else path.rdropWhile inComponent

def fileName (path : Text) : Text :=
  path.rtakeWhile inComponent

-- A listing of directories that shows these files, in any order.
structure Disk (paths : List Text) where
  readDir : Text → Option (List Text)
  shows : ∀ dir name, name ∈ (readDir dir).getD [] ↔ ∃ path ∈ paths, directory path = dir ∧ fileName path = name

def Disk.of (paths : List Text) : Disk paths where
  readDir dir := some ((paths.filter (directory · = dir)).map fileName)
  shows dir name := by simp [and_assoc]

-- The identities of the teams, and other files of these teams and of the personal account.
structure Enrolment (cm : CaseMap) where
  teams : List (Team cm)
  others : List (File cm)
  enrolled : ∀ f ∈ others, ∀ team ∈ f.scope, team ∈ teams

variable {cm : CaseMap}

def Enrolment.files (e : Enrolment cm) : List (File cm) :=
  e.teams.map (fun team => ⟨some team, .primary .wireGuard⟩) ++ e.others

def Enrolment.paths (e : Enrolment cm) (base : Text) : List Text :=
  e.files.map (File.path base)

-- All the teams and nothing else, sorted and without repetitions.
structure ListsTeams (teams : List (Team cm)) (l : List Text) : Prop where
  sorted : l.Pairwise (· < ·)
  exact : ∀ name, name ∈ l ↔ ∃ team ∈ teams, team.val = name

-- The names that are taken for those of other files.
def Hidden (name : Text) : Prop :=
  Text.endsWith "-secondary".toList name ∨ Text.endsWith "-lastconn".toList name

instance : DecidablePred Hidden :=
  fun _ => inferInstanceAs (Decidable (_ ∨ _))

-- The separators of the path are those of the system, the extension is the one that is looked for, no
-- team has a name that is left out, and no other file has a name that is not that of a team.
structure Enrolment.Listable (e : Enrolment cm) (base : Text) : Prop where
  separators : '\\' ∉ fileName base
  extension : (cutExtension base).2 = ".toml".toList
  shown : ∀ team ∈ e.teams, ¬ Hidden team.val
  siblings : ∀ f ∈ e.others, f.role = .gool ∨ f.role = .avoid → ∀ team ∈ f.scope,
    ∃ team' ∈ e.teams, team'.val = team.val ++ rolePart f.role

section Names

def stem (base : Text) : Text :=
  ((Delimited.rcut '.' (base.rtakeWhile inName)).map Prod.fst).getD (base.rtakeWhile inName)

theorem cutExtension_fst (base : Text) : (cutExtension base).1 = base.rdropWhile inName ++ stem base := by
  unfold cutExtension stem
  split
  case h_1 stem ext h => rw [h]; rfl
  case h_2 h => rw [h]; exact (rdropWhile_append_rtakeWhile base).symm

theorem cutExtension_snd (base : Text) :
    (cutExtension base).2 = [] ∨ ∃ ext, (cutExtension base).2 = '.' :: ext ∧ '.' ∉ ext := by
  unfold cutExtension
  split
  case h_1 stem ext h => exact .inr ⟨ext, rfl, (rcut_eq_some h).2⟩
  case h_2 => exact .inl rfl

theorem inName_of_mem_name (base : Text) : ∀ c ∈ stem base ++ (cutExtension base).2, inName c := by
  have h := cutExtension_append base
  rw [cutExtension_fst, append_assoc] at h
  have hb := rdropWhile_append_rtakeWhile (p := inName) base
  rw [append_cancel_left (h.trans hb.symm)]
  exact fun c hc => mem_rtakeWhile_imp hc

theorem team_ne_nil (team : Team cm) : team.val ≠ [] := by
  obtain ⟨raw, h⟩ := team.property
  simp only [normalizeTeam] at h
  obtain ⟨-, h⟩ := ite_none_left_eq_some.mp h
  obtain ⟨⟨hn, _⟩, he⟩ := ite_none_right_eq_some.mp h
  exact some_inj.mp he ▸ hn

theorem plain_rolePart (role : Role) : Plain (rolePart role) := by
  have hd : ∀ r ∈ roles, Plain (rolePart r) := by decide
  exact hd role (mem_roles role)

theorem plain_part (scope : Scope cm) (role : Role) : Plain (part scope role) := by
  cases scope
  case none =>
    have hd : ∀ r ∈ roles, Plain (personalPart r) := by decide
    exact part_none role ▸ hd role (mem_roles role)
  case some team =>
    exact (Plain.append (by decide : Plain ['-']) (plain_teamSuffix team)).append (plain_rolePart role)

theorem path_eq_append (base : Text) (f : File cm) :
    f.path base = base.rdropWhile inName ++ (stem base ++ part f.scope f.role ++ (cutExtension base).2) := by
  rw [File.path, path_eq, cutExtension_fst, append_assoc, append_assoc, append_assoc]

theorem inName_of_mem_fileName (base : Text) (f : File cm) :
    ∀ c ∈ stem base ++ part f.scope f.role ++ (cutExtension base).2, inName c := by
  have hb := forall_mem_append.mp (inName_of_mem_name base)
  have hp : ∀ c ∈ part f.scope f.role, inName c := fun c hc => (plain_part f.scope f.role c hc).1
  exact forall_mem_append.mpr ⟨forall_mem_append.mpr ⟨hb.1, hp⟩, hb.2⟩

theorem inComponent_of_inName {c : Char} (h : inName c) : inComponent c := by
  simp only [inName, Bool.and_eq_true] at h
  exact h.1

end Names

section Directory

variable (base : Text)

theorem rdropWhile_inComponent : (base.rdropWhile inComponent).rdropWhile inName = base.rdropWhile inComponent := by
  refine rdropWhile_eq_self_iff.mpr fun hl hn => ?_
  exact rdropWhile_last_not inComponent base hl (inComponent_of_inName hn)

theorem rdropWhile_eq_iff : base.rdropWhile inName = base.rdropWhile inComponent ↔ '\\' ∉ fileName base := by
  have hn := rdropWhile_append_rtakeWhile (p := inName) base
  have hc := rdropWhile_append_rtakeWhile (p := inComponent) base
  constructor
  case mp =>
    intro h hm
    rw [← h] at hc
    rw [fileName, append_cancel_left (hc.trans hn.symm)] at hm
    exact absurd (mem_rtakeWhile_imp hm) (by decide)
  case mpr =>
    intro h
    have hf : ∀ c ∈ base.rtakeWhile inComponent, inName c := by
      intro c hm
      have hs : inComponent c := mem_rtakeWhile_imp hm
      have hb : c ≠ '\\' := fun he => h (he ▸ hm)
      simp only [inComponent, decide_eq_true_eq] at hs
      simp [inName, hs, hb]
    have hd := rdropWhile_append_of_forall (l := base.rdropWhile inComponent) hf
    rw [hc, rdropWhile_inComponent] at hd
    exact hd

def searched : Text :=
  if base.rdropWhile inName = [] then ".".toList else base.rdropWhile inName

theorem directory_path (f : File cm) : directory (f.path base) = directory base := by
  have hn := rdropWhile_append_rtakeWhile (p := inName) base
  have hm : ∀ c ∈ base.rtakeWhile inName, inComponent c :=
    fun c hc => inComponent_of_inName (mem_rtakeWhile_imp hc)
  have hm' : ∀ c ∈ stem base ++ part f.scope f.role ++ (cutExtension base).2, inComponent c :=
    fun c hc => inComponent_of_inName (inName_of_mem_fileName base f c hc)
  have he : (f.path base).rdropWhile inComponent = base.rdropWhile inComponent := by
    rw [path_eq_append, rdropWhile_append_of_forall hm', ← rdropWhile_append_of_forall hm, hn]
  rw [directory, directory, he]

theorem directory_eq_searched_iff : directory base = searched base ↔ '\\' ∉ fileName base := by
  rw [← rdropWhile_eq_iff, directory, searched]
  have hdot {p : Char → Bool} (hp : p '.') : base.rdropWhile p ≠ ".".toList := by
    intro h
    have hl : base.rdropWhile p ≠ [] := by rw [h]; decide
    refine rdropWhile_last_not p base hl ?_
    simpa [h] using hp
  have h₁ := hdot (p := inName) rfl
  have h₂ := hdot (p := inComponent) rfl
  split
  case isTrue h =>
    split
    case isTrue h' => simp [h, h']
    case isFalse h' => exact iff_of_false (Ne.symm h₁) (fun he => h' (he.trans h))
  case isFalse h =>
    split
    case isTrue h' => exact iff_of_false h₂ (fun he => h (he.symm.trans h'))
    case isFalse h' => exact eq_comm

theorem fileName_path (h : '\\' ∉ fileName base) (f : File cm) :
    fileName (f.path base) = stem base ++ part f.scope f.role ++ (cutExtension base).2 := by
  rw [fileName, path_eq_append, (rdropWhile_eq_iff base).mpr h]
  exact rtakeWhile_append fun c hc => inComponent_of_inName (inName_of_mem_fileName base f c hc)

end Directory

section Teams

variable {base name : Text}

theorem teamOf_eq_some {stem team : Text} :
    teamOf stem name = some team ↔ name = stem ++ "-team-".toList ++ (team ++ ".toml".toList) ∧ team ≠ [] ∧ ¬ Hidden team := by
  simp only [teamOf, bind_eq_bind, bind_eq_some_iff, Text.stripPrefix_eq_some, Text.stripSuffix_eq_some,
    ite_none_left_eq_some, not_or, Hidden]
  constructor
  case mp =>
    rintro ⟨rest, rfl, t, rfl, ⟨hn, hh⟩, he⟩
    cases he
    exact ⟨rfl, hn, hh⟩
  case mpr =>
    rintro ⟨rfl, hn, hh⟩
    exact ⟨_, rfl, _, rfl, ⟨hn, hh⟩, rfl⟩

-- The name of a team has no dot, so that the extension is found after it.
theorem append_ext_eq_iff {t ext name : Text} (ht : Plain t) (he : ext = [] ∨ ∃ e, ext = '.' :: e ∧ '.' ∉ e) :
    t ++ ext = name ++ ".toml".toList ↔ ext = ".toml".toList ∧ name = t := by
  constructor
  case mp =>
    intro h
    rcases he with rfl | ⟨e, rfl, hd⟩
    · have hm : '.' ∈ t := by
        rw [append_nil] at h
        exact h ▸ mem_append_right _ (by decide)
      exact absurd rfl (ht _ hm).2
    · have h₁ := rcut_append (a := t) hd
      have h₂ : Delimited.rcut '.' (name ++ '.' :: "toml".toList) = some (name, "toml".toList) :=
        rcut_append (by decide)
      rw [h] at h₁
      cases h₁.symm.trans h₂
      exact ⟨rfl, rfl⟩
  case mpr =>
    rintro ⟨rfl, rfl⟩
    rfl

theorem part_append_eq_iff (scope : Scope cm) (role : Role) :
    part scope role ++ (cutExtension base).2 = "-team-".toList ++ (name ++ ".toml".toList) ↔
      (cutExtension base).2 = ".toml".toList ∧ ∃ team, scope = some team ∧ name = team.val ++ rolePart role := by
  have he := cutExtension_snd base
  cases scope
  case none =>
    refine iff_of_false (fun h => ?_) (by simp)
    rw [part_none] at h
    have hd : ∀ r ∈ roles, personalPart r = [] ∨ 6 ≤ (personalPart r).length ∧ (personalPart r).take 6 ≠ "-team-".toList := by
      decide
    rcases hd role (mem_roles role) with hr | ⟨hl, hr⟩
    · rw [hr, nil_append] at h
      rcases he with he | ⟨e, he, -⟩
      · rw [he] at h; cases h
      · rw [he] at h; cases h
    · have ht := congrArg (List.take 6) h
      rw [take_append_of_le_length hl] at ht
      exact hr (ht.trans (by simp))
  case some team =>
    have hp : part (some team) role = "-team-".toList ++ (team.val ++ rolePart role) := by
      rw [part, scopePart, teamSuffix_eq]
      simp
    rw [hp, append_assoc, append_cancel_left_eq,
      append_ext_eq_iff ((plain_team team).append (plain_rolePart role)) he]
    simp

theorem mem_enrolledTeams {e : Enrolment cm} (disk : Disk (e.paths base)) : name ∈ enrolledTeams disk.readDir base ↔
      ('\\' ∉ fileName base ∧ (cutExtension base).2 = ".toml".toList) ∧ ¬ Hidden name ∧
        ∃ f ∈ e.files, ∃ team, f.scope = some team ∧ name = team.val ++ rolePart f.role := by
  have hm : name ∈ enrolledTeams disk.readDir base ↔
      ∃ entry ∈ (disk.readDir (searched base)).getD [], teamOf (stem base) entry = some name := by
    simp only [enrolledTeams]
    split
    case h_1 entries he =>
      rw [searched, he]
      simp [stem, mem_mergeSort, Distinct.mem_distinct]
    case h_2 he =>
      rw [searched, he]
      simp
  simp only [hm, disk.shows, teamOf_eq_some]
  constructor
  case mp =>
    rintro ⟨_, ⟨_, hp, hd, rfl⟩, hn, -, hh⟩
    obtain ⟨f, hf, rfl⟩ := mem_map.mp hp
    rw [directory_path, directory_eq_searched_iff] at hd
    rw [fileName_path base hd, append_assoc, append_assoc, append_cancel_left_eq, part_append_eq_iff] at hn
    exact ⟨⟨hd, hn.1⟩, hh, f, hf, hn.2⟩
  case mpr =>
    rintro ⟨⟨hd, he⟩, hh, f, hf, team, hs, rfl⟩
    have hdir : directory (f.path base) = searched base := (directory_path base f).trans ((directory_eq_searched_iff base).mpr hd)
    refine ⟨fileName (f.path base), ⟨f.path base, mem_map_of_mem hf, hdir, rfl⟩, ?_, ?_, hh⟩
    · rw [fileName_path base hd, append_assoc, append_assoc, append_cancel_left_eq, part_append_eq_iff]
      exact ⟨he, team, hs, rfl⟩
    · exact fun hn => team_ne_nil team (append_eq_nil_iff.mp hn).1

theorem sorted_enrolledTeams (readDir : Text → Option (List Text)) (base : Text) :
    (enrolledTeams readDir base).Pairwise (· < ·) := by
  simp only [enrolledTeams]
  split
  case h_1 entries _ =>
    have hs := pairwise_mergeSort' (· ≤ ·) (Distinct.distinct (entries.filterMap (teamOf (stem base))))
    have hn := (mergeSort_perm (Distinct.distinct (entries.filterMap (teamOf (stem base)))) (· ≤ ·)).nodup_iff.mpr
      (Distinct.nodup_distinct _)
    exact (hs.and hn).imp fun h => lt_of_le_of_ne h.1 h.2
  case h_2 => exact .nil

end Teams

section Roles

variable {role : Role}

theorem getLast?_of_endsWith {pat t : Text} (hp : pat ≠ []) (h : Text.endsWith pat t) : t.getLast? = pat.getLast? := by
  obtain ⟨s, rfl⟩ := isSuffixOf_iff_suffix.mp h
  exact List.getLast?_append_of_ne_nil s hp

theorem hidden_append (h : role = .secondary ∨ ∃ t, role = .lastconn t) (name : Text) : Hidden (name ++ rolePart role) := by
  rcases h with rfl | ⟨t, rfl⟩
  · exact .inl (isSuffixOf_iff_suffix.mpr (suffix_append name _))
  · exact .inr (isSuffixOf_iff_suffix.mpr (suffix_append name _))

theorem not_hidden_append (h : role = .gool ∨ role = .avoid) (name : Text) : ¬ Hidden (name ++ rolePart role) := by
  have hne : rolePart role ≠ [] := by rcases h with rfl | rfl <;> decide
  have hl : (rolePart role).getLast? ≠ some 'y' ∧ (rolePart role).getLast? ≠ some 'n' := by
    rcases h with rfl | rfl <;> decide
  rintro (hs | hs)
  · have he := getLast?_of_endsWith (by decide) hs
    rw [List.getLast?_append_of_ne_nil _ hne] at he
    exact hl.1 (he.trans (by decide))
  · have he := getLast?_of_endsWith (by decide) hs
    rw [List.getLast?_append_of_ne_nil _ hne] at he
    exact hl.2 (he.trans (by decide))

end Roles

theorem enrolledTeams_iff (base : Text) (e : Enrolment cm) (disk : Disk (e.paths base)) :
    ListsTeams e.teams (enrolledTeams disk.readDir base) ↔ e.teams = [] ∨ e.Listable base := by
  have hident {team : Team cm} (ht : team ∈ e.teams) :
      ∃ f ∈ e.files, ∃ t, f.scope = some t ∧ team.val = t.val ++ rolePart f.role :=
    ⟨⟨some team, .primary .wireGuard⟩, mem_append_left _ (mem_map_of_mem ht), team, rfl, (append_nil _).symm⟩
  constructor
  case mp =>
    rintro ⟨-, hx⟩
    have hall {team : Team cm} (ht : team ∈ e.teams) := (mem_enrolledTeams disk).mp ((hx team.val).mpr ⟨team, ht, rfl⟩)
    refine or_iff_not_imp_left.mpr fun hne => ?_
    obtain ⟨first, hfirst⟩ := exists_mem_of_ne_nil _ hne
    refine ⟨(hall hfirst).1.1, (hall hfirst).1.2, fun team ht => (hall ht).2.1, fun f hf hr team hs => ?_⟩
    refine (hx _).mp ((mem_enrolledTeams disk).mpr ⟨(hall hfirst).1, not_hidden_append hr _, ?_⟩)
    exact ⟨f, mem_append_right _ hf, team, hs, rfl⟩
  case mpr =>
    refine fun h => ⟨sorted_enrolledTeams _ _, fun name => ?_⟩
    rw [mem_enrolledTeams]
    rcases h with h | h
    · refine iff_of_false ?_ (by simp [h])
      rintro ⟨-, -, f, hf, team, hs, -⟩
      have hf : f ∈ e.others := by simpa [Enrolment.files, h] using hf
      simpa [h] using e.enrolled f hf team hs
    · constructor
      case mp =>
        rintro ⟨-, hh, f, hf, team, hs, rfl⟩
        rcases mem_append.mp hf with hf | hf
        · obtain ⟨t, ht, rfl⟩ := mem_map.mp hf
          cases hs
          exact ⟨team, ht, (append_nil _).symm⟩
        · cases hr : f.role
          case primary => exact ⟨team, e.enrolled f hf team hs, (append_nil _).symm⟩
          case secondary => exact absurd (hidden_append (.inl hr) _) hh
          case lastconn t => exact absurd (hidden_append (.inr ⟨t, hr⟩) _) hh
          case gool => exact hr ▸ h.siblings f hf (.inl hr) team hs
          case avoid => exact hr ▸ h.siblings f hf (.inr hr) team hs
      case mpr =>
        rintro ⟨team, ht, rfl⟩
        exact ⟨⟨h.separators, h.extension⟩, h.shown team ht, hident ht⟩

theorem normalizeTeam_a : normalizeTeam .ascii "a".toList = some "a".toList := by
  decide

def nested : Enrolment .ascii where
  teams := [named "a" normalizeTeam_a]
  others := [⟨some (named "a" normalizeTeam_a), .gool⟩]
  enrolled f hf team ht := by
    cases mem_singleton.mp hf
    cases ht
    exact mem_cons_self

theorem not_listsTeams :
    ¬ ListsTeams nested.teams (enrolledTeams (Disk.of (nested.paths "soildtunnel.toml".toList)).readDir "soildtunnel.toml".toList) := by
  intro h
  have hm : "a-gool".toList ∈ enrolledTeams (Disk.of (nested.paths "soildtunnel.toml".toList)).readDir "soildtunnel.toml".toList := by
    refine (mem_enrolledTeams _).mpr ⟨by decide, by decide, ⟨some (named "a" normalizeTeam_a), .gool⟩, ?_⟩
    exact ⟨by simp [Enrolment.files, nested], _, rfl, by decide⟩
  obtain ⟨team, ht, he⟩ := (h.exact _).mp hm
  rw [mem_singleton.mp ht] at he
  revert he
  decide

end Engine.Paths
