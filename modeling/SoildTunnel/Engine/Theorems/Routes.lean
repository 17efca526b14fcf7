import SoildTunnel.Engine.Routes

-- The rules that the variables and the file give: each entry counts, wherever it stands.
namespace Engine

open Rust List Delimited

def RuleSet.list (set : RuleSet) : RuleList → List Matcher
  | .block => set.block
  | .direct => set.direct

def Sections.list (s : Sections) : RuleList → Text
  | .block => s.block
  | .direct => s.direct

def RuleList.variable : RuleList → Cli.Variable
  | .block => .ROUTE_BLOCK
  | .direct => .ROUTE_DIRECT

namespace RuleSet

variable {cm : CaseMap} {rs : RuleSyntax} {t u line : Text} {m : Matcher}

section Lists

def entriesOf (t : Text) : List Text :=
  t.splitOnP fun c => c = '\n' || c = ',' || c = ';'

theorem mem_parseList : m ∈ parseList cm rs t ↔ ∃ e ∈ entriesOf t, Matcher.parse cm rs e = some m :=
  mem_filterMap

theorem parse_cons_blank {c : Char} (h : isWhitespace c.toNat) :
    Matcher.parse cm rs (c :: t) = Matcher.parse cm rs t := by
  have ht : Text.trim (c :: t) = Text.trim t := trim_cons_of_pos h
  unfold Matcher.parse
  rw [ht]

theorem parseList_nil : parseList cm rs [] = [] :=
  rfl

theorem parseList_append : parseList cm rs (t ++ '\n' :: u) = parseList cm rs t ++ parseList cm rs u := by
  rw [parseList, splitOnP_append_cons _ _ (by rfl), filterMap_append]
  rfl

def Ended (t : Text) : Prop :=
  t = [] ∨ ∃ u, t = u ++ ['\n']

theorem parseList_append_of_ended (h : Ended t) :
    parseList cm rs (t ++ u) = parseList cm rs t ++ parseList cm rs u := by
  rcases h with rfl | ⟨t, rfl⟩
  case inl => rfl
  case inr => simp [parseList_append, parseList_nil]

-- A blank either ends an empty entry or is trimmed off the entry it stands before.
theorem parseList_cons_blank {c : Char} (h : isWhitespace c.toNat) :
    parseList cm rs (c :: t) = parseList cm rs t := by
  rw [parseList, splitOnP_cons_eq_if_modifyHead]
  split
  case isTrue => rfl
  case isFalse =>
    unfold parseList
    cases hs : t.splitOnP fun c => c = '\n' || c = ',' || c = ';'
    case nil => exact absurd hs (splitOnP_ne_nil _ t)
    case cons e es => simp only [modifyHead_cons, filterMap_cons, parse_cons_blank h]

theorem parseList_blank_append (h : t.trim = []) : parseList cm rs (t ++ u) = parseList cm rs u := by
  have hc : ∀ c ∈ t, isWhitespace c.toNat := trim_eq_nil_iff.mp h
  clear h
  induction t
  case nil => rfl
  case cons c t hi =>
    rw [forall_mem_cons] at hc
    rw [cons_append, parseList_cons_blank hc.left, hi hc.right]

theorem parseList_blank (h : t.trim = []) : parseList cm rs t = [] := by
  rw [← append_nil t, parseList_blank_append h, parseList_nil]

-- Nothing is merged or lost at the seam.
theorem parseList_pushList : parseList cm rs (pushList t u) = parseList cm rs t ++ parseList cm rs u := by
  unfold pushList
  by_cases hu : u.trim = []
  case pos => simp [hu, parseList_blank hu]
  case neg =>
    by_cases ht : t.trim = []
    case pos => simp [hu, ht, parseList_blank ht, parseList_blank_append ht]
    case neg => simp [hu, ht, parseList_append]

theorem parseList_intercalate (ls : List Text) :
    parseList cm rs (['\n'].intercalate ls) = ls.flatMap (parseList cm rs) := by
  induction ls
  case nil => rfl
  case cons l ls hi =>
    cases ls
    case nil => simp
    case cons l' ls => simp [intercalate_cons_cons, parseList_append, hi]

theorem parseList_eq_flatMap (t : Text) : parseList cm rs t = (t.splitOn '\n').flatMap (parseList cm rs) := by
  have ht : ['\n'].intercalate (t.splitOn '\n') = t := intercalate_splitOn '\n'
  rw [← parseList_intercalate, ht]

end Lists

section File

def isRemark (line : Text) : Bool :=
  line.trim = [] || line.trim.head? = some '#'

-- A line that starts a section, which may be one that is not known.
def header? (cm : CaseMap) (line : Text) : Option (Option RuleList) :=
  if isRemark line then none
  else if cm.toLowercase line.trim = "[block]".toList then some (some .block)
  else if cm.toLowercase line.trim = "[direct]".toList then some (some .direct)
  else if (cm.toLowercase line.trim).head? = some '[' then some none
  else none

-- The list whose section the next line is in: that of the nearest header before it.
def listAfter (cm : CaseMap) (ls : List Text) : Option RuleList :=
  (ls.filterMap (header? cm)).getLast?.join

def fileEntries (cm : CaseMap) (k : RuleList) (ls : List Text) : Set Text :=
  {e | ∃ pre line post, ls = pre ++ line :: post ∧ isRemark line = false ∧ header? cm line = none ∧
    listAfter cm pre = some k ∧ e ∈ entriesOf line.trim}

theorem sectionLine_of_isRemark {s : Sections} (h : isRemark line) : sectionLine cm s line = s := by
  have h : line.trim = [] ∨ line.trim.head? = some '#' := by simpa [isRemark] using h
  exact if_pos h

theorem sectionLine_nil {s : Sections} : sectionLine cm s [] = s := by
  have h : isRemark [] := rfl
  exact sectionLine_of_isRemark h

theorem sectionLine_of_header {s : Sections} {k : Option RuleList} (h : header? cm line = some k) :
    sectionLine cm s line = { s with current := k } := by
  unfold header? at h
  by_cases hr : isRemark line
  case pos => simp [hr] at h
  case neg =>
    have hn : ¬ (line.trim = [] ∨ line.trim.head? = some '#') := by simpa [isRemark] using hr
    simp only [sectionLine, if_neg hn]
    rw [if_neg hr] at h
    generalize cm.toLowercase line.trim = lowered at h
    split_ifs at h ⊢ <;> obtain rfl := Option.some_inj.mp h <;> rfl

theorem sectionLine_of_entries {s : Sections} (hr : isRemark line = false) (h : header? cm line = none) :
    (sectionLine cm s line).current = s.current ∧ ∀ k, (sectionLine cm s line).list k =
      s.list k ++ if s.current = some k then line.trim ++ ['\n'] else [] := by
  unfold header? at h
  have hn : ¬ (line.trim = [] ∨ line.trim.head? = some '#') := by simpa [isRemark] using hr
  simp only [sectionLine, if_neg hn]
  rw [if_neg (by simp [hr])] at h
  generalize cm.toLowercase line.trim = lowered at h
  split_ifs at h ⊢
  obtain ⟨block, direct, current⟩ := s
  rcases current with _ | _ | _
  case none => simp
  case some.block => exact ⟨rfl, fun k => by cases k <;> simp [Sections.list]⟩
  case some.direct => exact ⟨rfl, fun k => by cases k <;> simp [Sections.list]⟩

theorem listAfter_concat (ls : List Text) (line : Text) :
    listAfter cm (ls ++ [line]) = (header? cm line).getD (listAfter cm ls) := by
  unfold listAfter
  cases h : header? cm line <;> simp [h]

theorem fileEntries_concat (k : RuleList) (ls : List Text) (line : Text) :
    fileEntries cm k (ls ++ [line]) = fileEntries cm k ls ∪ {e | isRemark line = false ∧ header? cm line = none ∧
      listAfter cm ls = some k ∧ e ∈ entriesOf line.trim} := by
  ext e
  constructor
  case mp =>
    rintro ⟨pre, l, post, hl, h⟩
    rcases eq_nil_or_concat post with rfl | ⟨post, l', rfl⟩
    case inl =>
      obtain ⟨rfl, rfl⟩ : ls = pre ∧ line = l := by simpa using append_inj' hl rfl
      exact .inr h
    case inr =>
      have hl : ls ++ [line] = (pre ++ l :: post) ++ [l'] := by simpa using hl
      obtain ⟨rfl, -⟩ := append_inj' hl rfl
      exact .inl ⟨pre, l, post, rfl, h⟩
  case mpr =>
    rintro (⟨pre, l, post, rfl, h⟩ | h)
    case inl => exact ⟨pre, l, post ++ [line], by simp, h⟩
    case inr => exact ⟨ls, line, [], rfl, h⟩

structure Collected (cm : CaseMap) (rs : RuleSyntax) (ls : List Text) (s : Sections) (k : RuleList) : Prop where
  ended : Ended (s.list k)
  rules : ∀ m, m ∈ parseList cm rs (s.list k) ↔ ∃ e ∈ fileEntries cm k ls, Matcher.parse cm rs e = some m

variable {ls : List Text} {s : Sections} {k : RuleList}

theorem Collected.skip (h : Collected cm rs ls s k) (hl : isRemark line ∨ header? cm line ≠ none) :
    Collected cm rs (ls ++ [line]) s k where
  ended := h.ended
  rules m := by
    have he : fileEntries cm k (ls ++ [line]) = fileEntries cm k ls := by
      rw [fileEntries_concat]
      ext e
      rcases hl with hl | hl <;> simp [hl]
    rw [h.rules, he]

theorem Collected.push (h : Collected cm rs ls s k) (hc : s.current = listAfter cm ls)
    (hr : isRemark line = false) (hh : header? cm line = none) :
    Collected cm rs (ls ++ [line]) (sectionLine cm s line) k := by
  have hlist := (sectionLine_of_entries (s := s) hr hh).right k
  by_cases hk : s.current = some k
  case pos =>
    rw [if_pos hk] at hlist
    refine ⟨hlist ▸ .inr ⟨s.list k ++ line.trim, by simp⟩, fun m => ?_⟩
    have hp : parseList cm rs (line.trim ++ ['\n']) = parseList cm rs line.trim := by
      rw [parseList_append, parseList_nil, append_nil]
    rw [hlist, parseList_append_of_ended h.ended, hp, mem_append, h.rules, mem_parseList, fileEntries_concat]
    simp [hr, hh, ← hc, hk, or_and_right, exists_or]
  case neg =>
    rw [if_neg hk, append_nil] at hlist
    refine ⟨hlist ▸ h.ended, fun m => ?_⟩
    rw [hlist, h.rules, fileEntries_concat]
    simp [← hc, hk]

theorem foldl_sectionLine (cm : CaseMap) (rs : RuleSyntax) (ls : List Text) :
    (ls.foldl (sectionLine cm) {}).current = listAfter cm ls ∧
      ∀ k, Collected cm rs ls (ls.foldl (sectionLine cm) {}) k := by
  induction ls using List.reverseRecOn
  case nil =>
    refine ⟨rfl, fun k => ⟨?_, fun m => ?_⟩⟩
    · cases k <;> exact .inl rfl
    · cases k <;> simp [fileEntries, Sections.list, parseList_nil]
  case append_singleton ls line hi =>
    simp only [foldl_append, foldl_cons, foldl_nil, listAfter_concat]
    generalize ls.foldl (sectionLine cm) {} = s at hi
    obtain ⟨hc, hi⟩ := hi
    cases hh : header? cm line
    case some c =>
      rw [sectionLine_of_header hh]
      refine ⟨rfl, fun k => ?_⟩
      have hk := Collected.skip (hi k) (.inr (hh ▸ Option.some_ne_none c))
      cases k <;> exact ⟨hk.ended, hk.rules⟩
    case none =>
      cases hr : isRemark line
      case true =>
        rw [sectionLine_of_isRemark hr]
        exact ⟨hc, fun k => (hi k).skip (.inl hr)⟩
      case false => exact ⟨(sectionLine_of_entries hr hh).left.trans hc, fun k => (hi k).push hc hr hh⟩

end File

section Rules

-- The text of a list's variable, the file, and the entries of both.
def envText (env : Cli.Env) (k : RuleList) : Text :=
  (env k.variable).getD []

def fileText (env : Cli.Env) (readToString : Text → Option Text) : Option Text :=
  (env .ROUTES_FILE).bind readToString

def entries (cm : CaseMap) (env : Cli.Env) (readToString : Text → Option Text) (k : RuleList) : Set Text :=
  {e | e ∈ entriesOf (envText env k)} ∪ {e | ∃ text ∈ fileText env readToString, e ∈ fileEntries cm k text.lines}

variable {env : Cli.Env} {readToString : Text → Option Text} {k : RuleList}

theorem list_fromEnv (k : RuleList) : (fromEnv cm rs env readToString).list k = parseList cm rs (envText env k) ++
    (fileText env readToString).elim [] fun text => parseList cm rs ((splitSections cm text).list k) := by
  unfold fromEnv fileText
  cases (env .ROUTES_FILE).bind readToString
  case none => cases k <;> simp [RuleSet.list, parse, envText, RuleList.variable]
  case some text =>
    cases k <;> simp [RuleSet.list, parse, envText, RuleList.variable, Sections.list, parseList_pushList]

theorem mem_list_fromEnv : m ∈ (fromEnv cm rs env readToString).list k ↔
    ∃ e ∈ entries cm env readToString k, Matcher.parse cm rs e = some m := by
  rw [list_fromEnv, mem_append, mem_parseList]
  cases h : fileText env readToString
  case none => simp [entries, h]
  case some text =>
    have hf := ((foldl_sectionLine cm rs text.lines).right k).rules m
    simp only [Option.elim_some, splitSections, hf, entries, h]
    simp [or_and_right, exists_or]

-- What the entries of two lists say about a connection.
def Applies (cm : CaseMap) (rs : RuleSyntax) (es : Set Text) (host : Host) (port : UInt16) : Prop :=
  ∃ e ∈ es, ∃ m, Matcher.parse cm rs e = some m ∧ m.matchesAt cm host port

open Classical in
noncomputable def decision (cm : CaseMap) (rs : RuleSyntax) (es : RuleList → Set Text) (host : Host) (port : UInt16) :
    Action :=
  if Applies cm rs (es .block) host port then .block
  else if Applies cm rs (es .direct) host port then .direct
  else .proxy

theorem any_matchesAt_iff {host : Host} {port : UInt16} :
    ((fromEnv cm rs env readToString).list k).any (·.matchesAt cm host port) ↔
      Applies cm rs (entries cm env readToString k) host port := by
  simp only [any_eq_true, mem_list_fromEnv, Applies]
  constructor
  case mp => exact fun ⟨m, ⟨e, he, hp⟩, hm⟩ => ⟨e, he, m, hp, hm⟩
  case mpr => exact fun ⟨e, he, m, hp, hm⟩ => ⟨m, ⟨e, he, hp⟩, hm⟩

-- The decision rests on the sets of the entries alone, so neither their order nor how often they
-- are given matters.
theorem decide_fromEnv (cm : CaseMap) (rs : RuleSyntax) (env : Cli.Env) (readToString : Text → Option Text)
    (host : Host) (port : UInt16) :
    (fromEnv cm rs env readToString).decide cm host port =
      decision cm rs (entries cm env readToString) host port := by
  have hb : _ ↔ Applies cm rs (entries cm env readToString .block) host port := any_matchesAt_iff
  have hd : _ ↔ Applies cm rs (entries cm env readToString .direct) host port := any_matchesAt_iff
  simp only [decide, decision, ← hb, ← hd]
  rfl

end Rules

section Comments

def isComment (line : Text) : Bool :=
  line.trim.head? = some '#'

def deleteComments (t : Text) : Text :=
  ['\n'].intercalate ((t.splitOn '\n').filter (! isComment ·))

-- The comments are deleted from some of the three texts.
structure Deleted where
  from? : RuleList → Bool
  fromFile : Bool

def Deleted.env (d : Deleted) (env : Cli.Env) : Cli.Env
  | .ROUTE_BLOCK => (env .ROUTE_BLOCK).map fun t => if d.from? .block then deleteComments t else t
  | .ROUTE_DIRECT => (env .ROUTE_DIRECT).map fun t => if d.from? .direct then deleteComments t else t
  | v => env v

def Deleted.read (d : Deleted) (readToString : Text → Option Text) (path : Text) : Option Text :=
  (readToString path).map fun t => if d.fromFile then deleteComments t else t

def commentRules (cm : CaseMap) (rs : RuleSyntax) (t : Text) : List Matcher :=
  ((t.splitOn '\n').filter isComment).flatMap (parseList cm rs)

theorem mem_parseList_iff_deleteComments : m ∈ parseList cm rs t ↔
    m ∈ parseList cm rs (deleteComments t) ∨ m ∈ commentRules cm rs t := by
  rw [parseList_eq_flatMap, deleteComments, parseList_intercalate, commentRules]
  simp only [mem_flatMap, mem_filter]
  constructor
  case mp =>
    rintro ⟨l, hl, hm⟩
    cases hc : isComment l
    case false => exact .inl ⟨l, ⟨hl, by simp [hc]⟩, hm⟩
    case true => exact .inr ⟨l, ⟨hl, hc⟩, hm⟩
  case mpr =>
    rintro (⟨l, ⟨hl, -⟩, hm⟩ | ⟨l, ⟨hl, -⟩, hm⟩)
    all_goals exact ⟨l, hl, hm⟩

theorem trim_stripCr (line : Text) : ((Text.stripSuffix ['\r'] line).getD line).trim = line.trim := by
  unfold Text.stripSuffix
  split
  case isFalse => rfl
  case isTrue h =>
    obtain ⟨u, rfl⟩ := isSuffixOf_iff_suffix.mp h
    have ht : Text.trim (u ++ ['\r']) = Text.trim u := trim_concat_of_pos rfl
    simp [ht]

theorem sectionLine_congr {s : Sections} {l l' : Text} (h : l.trim = l'.trim) :
    sectionLine cm s l = sectionLine cm s l' := by
  unfold sectionLine
  rw [h]

theorem splitSections_eq (t : Text) : splitSections cm t = (t.splitOn '\n').foldl (sectionLine cm) {} := by
  have hne : t.splitOn '\n' ≠ [] := splitOnP_ne_nil _ t
  obtain ⟨ls, l, hl⟩ := (eq_nil_or_concat (t.splitOn '\n')).resolve_left hne
  have hcr : (fun s line => sectionLine cm s ((Text.stripSuffix ['\r'] line).getD line)) = sectionLine cm := by
    funext s line
    exact sectionLine_congr (trim_stripCr line)
  simp only [splitSections, Text.lines, hl, concat_eq_append, dropLast_concat, List.getLast?_concat,
    foldl_append, foldl_map, hcr, foldl_cons, foldl_nil]
  -- The empty line after the last line feed is the only one that is not visited.
  by_cases hn : l = []
  case pos => simp [hn, sectionLine_nil, Option.filter]
  case neg => simp [hn, Option.filter]

theorem splitSections_deleteComments (t : Text) : splitSections cm (deleteComments t) = splitSections cm t := by
  have hf : ((t.splitOn '\n').filter (! isComment ·)).foldl (sectionLine cm) {} =
      (t.splitOn '\n').foldl (sectionLine cm) {} := by
    rw [foldl_filter]
    congr 1
    funext s line
    cases hc : isComment line
    case false => rfl
    case true => exact (sectionLine_of_isRemark (by simp_all [isRemark, isComment])).symm
  rw [splitSections_eq, splitSections_eq, ← hf, deleteComments]
  by_cases hne : (t.splitOn '\n').filter (! isComment ·) = []
  case pos =>
    rw [hne]
    show sectionLine cm {} [] = {}
    exact sectionLine_nil
  case neg =>
    rw [splitOn_intercalate '\n' ?_ hne]
    intro l hl hm
    have hn := (mem_splitOnP (mem_filter.mp hl).left '\n' hm).left
    simp at hn

variable {env : Cli.Env} {readToString : Text → Option Text} {d : Deleted} {k : RuleList}

theorem envText_env : envText (d.env env) k = if d.from? k then deleteComments (envText env k) else envText env k := by
  have hn : deleteComments [] = [] := rfl
  cases k
  case block => cases h : env .ROUTE_BLOCK <;> simp [envText, RuleList.variable, Deleted.env, h, hn]
  case direct => cases h : env .ROUTE_DIRECT <;> simp [envText, RuleList.variable, Deleted.env, h, hn]

theorem fileText_env : fileText (d.env env) (d.read readToString) =
    (fileText env readToString).map fun t => if d.fromFile then deleteComments t else t := by
  cases h : env .ROUTES_FILE <;> simp [fileText, Deleted.env, h, Deleted.read]

theorem mem_list_deleted : m ∈ (fromEnv cm rs env readToString).list k ↔
    m ∈ (fromEnv cm rs (d.env env) (d.read readToString)).list k ∨
      d.from? k ∧ m ∈ commentRules cm rs (envText env k) := by
  have hs (t : Text) : splitSections cm (if d.fromFile then deleteComments t else t) = splitSections cm t := by
    split
    case isTrue => exact splitSections_deleteComments t
    case isFalse => rfl
  simp only [list_fromEnv, envText_env, fileText_env, Option.elim_map, Function.comp_def, hs, mem_append]
  cases hd : d.from? k
  case false => simp
  case true =>
    rw [mem_parseList_iff_deleteComments]
    simp only [if_true, true_and]
    exact or_right_comm

theorem head?_trim_cons {c : Char} (h : ¬ isWhitespace c.toNat) : (Text.trim (c :: t)).head? = some c := by
  have hd : (c :: t).dropWhile (fun c => isWhitespace c.toNat) = c :: t := dropWhile_cons_of_neg h
  have hn : Text.trim (c :: t) ≠ [] := fun hn => h (trim_eq_nil_iff.mp hn c mem_cons_self)
  obtain ⟨d, u, hu⟩ := exists_cons_of_ne_nil hn
  have hp : Text.trim (c :: t) <+: c :: t := by
    rw [Text.trim, Delimited.trim, hd]
    exact List.rdropWhile_prefix ..
  rw [hu] at hp ⊢
  exact congrArg some (cons_prefix_cons.mp hp).1

theorem parse_of_isComment (h : isComment t) : Matcher.parse cm rs t = none := by
  simp only [isComment, decide_eq_true_eq] at h
  simp [Matcher.parse, h]

-- What comes before the first separator of a comment is a comment.
theorem entriesOf_comment (hn : '\n' ∉ t) (h : isComment t) : ∃ e es, entriesOf t = e :: es ∧ isComment e := by
  induction t
  case nil => cases h
  case cons c t ih =>
    obtain ⟨hc, hn⟩ := not_or.mp (mt mem_cons.mpr hn)
    have hs (e : Text) (es : List Text) (he : entriesOf t = e :: es) (hs : c ≠ ',' ∧ c ≠ ';') :
        entriesOf (c :: t) = (c :: e) :: es := by
      rw [entriesOf, splitOnP_cons_eq_if_modifyHead, if_neg (by simp [hs, Ne.symm hc]), ← entriesOf, he]
      rfl
    by_cases hw : isWhitespace c.toNat
    case pos =>
      have ht (u : Text) : isComment (c :: u) = isComment u := by
        rw [isComment, show Text.trim (c :: u) = Text.trim u from trim_cons_of_pos hw]
        rfl
      obtain ⟨e, es, he, hm⟩ := ih hn (ht t ▸ h)
      refine ⟨c :: e, es, hs e es he ⟨?_, ?_⟩, (ht e).symm ▸ hm⟩
      all_goals rintro rfl; cases hw
    case neg =>
      simp only [isComment, head?_trim_cons hw, decide_eq_true_eq, Option.some.injEq] at h
      subst h
      obtain ⟨e, es, he⟩ := exists_cons_of_ne_nil (splitOnP_ne_nil (fun c => c = '\n' || c = ',' || c = ';') t)
      exact ⟨'#' :: e, es, hs e es he ⟨by decide, by decide⟩, by simp [isComment, head?_trim_cons hw]⟩

-- The entries of a line that stand behind a `,` or `;` and are not comments of their own.
def asides (line : Text) : List Text :=
  (entriesOf line).tail.filter (! isComment ·)

theorem mem_commentRules : m ∈ commentRules cm rs t ↔
    ∃ l ∈ t.splitOn '\n', isComment l ∧ ∃ e ∈ asides l, Matcher.parse cm rs e = some m := by
  simp only [commentRules, mem_flatMap, mem_filter, mem_parseList, and_assoc]
  refine exists_congr fun l => and_congr_right fun hl => and_congr_right fun hc => ?_
  have hn : '\n' ∉ l := fun hm => by simpa using (mem_splitOnP hl '\n' hm).left
  obtain ⟨e, es, he, hm⟩ := entriesOf_comment hn hc
  constructor
  case mp =>
    rintro ⟨e', he', hp⟩
    have hx : ¬ isComment e' := fun hx => by cases (parse_of_isComment hx).symm.trans hp
    rw [he] at he'
    obtain rfl | he' := mem_cons.mp he'
    · exact absurd hm hx
    · exact ⟨e', by simp [asides, he, he', hx], hp⟩
  case mpr =>
    rintro ⟨e', he', hp⟩
    exact ⟨e', mem_of_mem_tail (mem_of_mem_filter he'), hp⟩

-- Deleting comments leaves the rules exactly if what a variable's comment holds behind a separator
-- is no rule, or is a rule that stands elsewhere too.
theorem rules_deleted_iff (cm : CaseMap) (rs : RuleSyntax) (env : Cli.Env) (readToString : Text → Option Text)
    (d : Deleted) :
    (∀ k, {m | m ∈ (fromEnv cm rs (d.env env) (d.read readToString)).list k} =
      {m | m ∈ (fromEnv cm rs env readToString).list k}) ↔
    ∀ k, d.from? k → ∀ l ∈ (envText env k).splitOn '\n', isComment l →
      ∀ e ∈ asides l, ∀ m, Matcher.parse cm rs e = some m →
        ∃ e' ∈ entries cm (d.env env) (d.read readToString) k, Matcher.parse cm rs e' = some m := by
  refine forall_congr' fun k => ?_
  have hl (m : Matcher) : m ∈ (fromEnv cm rs env readToString).list k ↔ _ ∨ d.from? k ∧ _ := mem_list_deleted
  simp only [Set.ext_iff, Set.mem_ofPred_eq, hl]
  constructor
  case mp =>
    intro h hd l hl hc e he m hm
    exact mem_list_fromEnv.mp ((h m).mpr (.inr ⟨hd, mem_commentRules.mpr ⟨l, hl, hc, e, he, hm⟩⟩))
  case mpr =>
    intro h m
    refine ⟨.inl, fun hm => hm.elim id fun ⟨hd, hm⟩ => mem_list_fromEnv.mpr ?_⟩
    obtain ⟨l, hl, hc, e, he, hm⟩ := mem_commentRules.mp hm
    exact h hd l hl hc e he m hm

def remark : Cli.Env
  | .ROUTE_BLOCK => some "# a, example.com".toList
  | _ => none

def Deleted.all : Deleted :=
  ⟨fun _ => true, true⟩

theorem not_rules_deleted : ¬ ∀ k,
    {m | m ∈ (fromEnv .ascii ⟨fun _ => none, fun _ => none⟩ (Deleted.all.env remark) (Deleted.all.read fun _ => none)).list k} =
      {m | m ∈ (fromEnv .ascii ⟨fun _ => none, fun _ => none⟩ remark fun _ => none).list k} := by
  intro h
  have hl : (fromEnv .ascii ⟨fun _ => none, fun _ => none⟩ remark fun _ => none).block.length = 1 := by decide +kernel
  have hn : (fromEnv .ascii ⟨fun _ => none, fun _ => none⟩ (Deleted.all.env remark)
      (Deleted.all.read fun _ => none)).block.length = 0 := by decide +kernel
  obtain ⟨m, hm⟩ := length_eq_one_iff.mp hl
  have hb := Set.ext_iff.mp (h .block) m
  simp [list, hm, length_eq_zero_iff.mp hn] at hb

end Comments

end RuleSet

end Engine
