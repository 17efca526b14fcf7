import SoildTunnel.Engine.Socks.Http

-- Requests whose target is a whole URI, and what the front end reads out of them.
namespace Engine.Socks

open Rust List Delimited Option

namespace Uri

-- The characters of the parts of a URI, where a percent sign stands for the encoding of any other.
def alphabet : Text :=
  "ABCDEFGHIJKLMNOPQRSTUVWXYZabcdefghijklmnopqrstuvwxyz0123456789-._~!$&'()*+,;=%".toList

def nameChar (c : Char) : Bool :=
  List.contains alphabet c

def userChar (c : Char) : Bool :=
  nameChar c || c = ':'

def pathChar (c : Char) : Bool :=
  userChar c || c = '@' || c = '/'

def queryChar (c : Char) : Bool :=
  pathChar c || c = '?'

def literalAlphabet : Text :=
  "0123456789abcdefABCDEF:.".toList

def literalChar (c : Char) : Bool :=
  List.contains literalAlphabet c

end Uri

-- A URI with the scheme `http`. A literal address stands in brackets.
structure Uri where
  scheme : Text
  userinfo : Option Text
  literal : Bool
  host : Text
  port : Option Text
  path : Text
  query : Option Text
  http : Text.eqIgnoreAsciiCase scheme "http".toList
  userinfo_chars : ∀ t ∈ userinfo, t.all Uri.userChar
  host_ne_nil : host ≠ []
  host_chars : host.all (if literal then Uri.literalChar else Uri.nameChar)
  port_chars : ∀ t ∈ port, t.all Char.isDigit
  path_absolute : path = [] ∨ path.head? = some '/'
  path_chars : path.all Uri.pathChar
  query_chars : ∀ t ∈ query, t.all Uri.queryChar

namespace Uri

variable (u : Uri)

def hostText : Text :=
  if u.literal then '[' :: u.host ++ [']'] else u.host

def authority : Text :=
  u.userinfo.elim [] (· ++ ['@']) ++ u.hostText ++ u.port.elim [] (':' :: ·)

def queryText : Text :=
  u.query.elim [] ('?' :: ·)

def text : Text :=
  u.scheme ++ "://".toList ++ (u.authority ++ u.path ++ u.queryText)

def target : Text :=
  (if u.path = [] then ['/'] else u.path) ++ u.queryText

def portNumber : Nat :=
  (u.port.bind Text.decimal).getD 80

end Uri

def IsWord (t : Text) : Prop :=
  t ≠ [] ∧ ∀ c ∈ t, isWhitespace c.toNat = false

structure UriRequest where
  method : Text
  uri : Uri
  version : Text
  method_isWord : IsWord method
  version_isWord : IsWord version

def UriRequest.line (q : UriRequest) : Text :=
  [' '].intercalate [q.method, q.uri.text, q.version]

def UriRequest.ReadRight (q : UriRequest) : Prop :=
  ∃ r, parseRequestLine q.line = some r ∧ r.authority = q.uri.host ∧ r.port.toNat = q.uri.portNumber ∧
    r.rewritten = some (q.method ++ ' ' :: q.uri.target ++ ' ' :: q.version ++ ['\r', '\n'])

-- The forms of a URI that are understood.
structure UriRequest.Plain (q : UriRequest) : Prop where
  method : ¬ Text.eqIgnoreAsciiCase q.method "CONNECT".toList
  scheme : q.uri.scheme = "http".toList ∨ q.uri.scheme = "HTTP".toList
  userinfo : q.uri.userinfo = none
  port : ∀ t ∈ q.uri.port, t ≠ [] ∧ q.uri.portNumber < 2 ^ 16
  path : q.uri.path ≠ [] ∨ q.uri.query = none

variable {c : Char} {t : Text}

section Chars

theorem not_mem_of_all {p : Char → Bool} (h : t.all p) (hc : p c = false) : c ∉ t := by
  intro hm
  rw [all_eq_true.mp h c hm] at hc
  cases hc

theorem isWhitespace_of_mem {l : Text} (hl : l.all fun c => !isWhitespace c.toNat) (h : List.contains l c) :
    isWhitespace c.toNat = false := by
  have := all_eq_true.mp hl c (contains_iff_mem.mp h)
  simpa using this

theorem IsWord.of_all (ht : t ≠ []) (h : t.all fun c => !isWhitespace c.toNat) : IsWord t :=
  ⟨ht, fun _ hc => isWhitespace_of_mem h (contains_iff_mem.mpr hc)⟩

-- What stands between the parts of an authority and after it, the colon apart.
def delimiters : Text :=
  ['/', '[', ']', '@']

theorem nameChar_delimiter (h : c ∈ ':' :: delimiters) : Uri.nameChar c = false := by
  have hd : (':' :: delimiters).all fun c => !Uri.nameChar c := by decide +kernel
  simpa using all_eq_true.mp hd c h

theorem literalChar_delimiter (h : c ∈ delimiters) : Uri.literalChar c = false := by
  have hd : delimiters.all fun c => !Uri.literalChar c := by decide +kernel
  simpa using all_eq_true.mp hd c h

theorem userChar_delimiter (h : c ∈ delimiters) : Uri.userChar c = false := by
  have hc : c ≠ ':' := by
    rintro rfl
    exact absurd h (by decide)
  simp [Uri.userChar, nameChar_delimiter (mem_cons_of_mem _ h), hc]

theorem isWhitespace_of_queryChar (h : Uri.queryChar c) : isWhitespace c.toNat = false := by
  simp only [Uri.queryChar, Uri.pathChar, Uri.userChar, Bool.or_eq_true, decide_eq_true_eq] at h
  rcases h with (((h | rfl) | rfl) | rfl) | rfl
  · exact isWhitespace_of_mem (l := Uri.alphabet) (by decide +kernel) h
  all_goals rfl

theorem isWhitespace_of_literalChar (h : Uri.literalChar c) : isWhitespace c.toNat = false :=
  isWhitespace_of_mem (l := Uri.literalAlphabet) (by decide +kernel) h

theorem isWhitespace_of_isDigit (h : c.isDigit) : isWhitespace c.toNat = false := by
  have hc : 48 ≤ c.toNat ∧ c.toNat ≤ 57 := by simpa [Char.isDigit, UInt32.le_iff_toNat_le] using h
  obtain ⟨h₁, h₂⟩ := hc
  generalize c.toNat = n at h₁ h₂
  interval_cases n <;> rfl

end Chars

section Authority

variable {raw host : Text} {port : Option Text} {d : UInt16}

def portOr (port : Option Text) (d : UInt16) : Option UInt16 :=
  port.elim (some d) Text.parseU16

theorem trim_eq_self (h : ∀ c ∈ raw, isWhitespace c.toNat = false) : Text.trim raw = raw :=
  Delimited.trim_eq_self h

theorem parseAuthority_literal (h : ∀ c ∈ '[' :: (host ++ ']' :: port.elim [] (':' :: ·)), isWhitespace c.toNat = false)
    (hh : host ≠ []) (hb : ']' ∉ host) :
    parseAuthority ('[' :: (host ++ ']' :: port.elim [] (':' :: ·))) d = (portOr port d).map (host, ·) := by
  rw [parseAuthority, trim_eq_self h]
  cases port <;> simp [portOr, cut_append hb, hh]

theorem parseAuthority_eq (h : ∀ c ∈ raw, isWhitespace c.toNat = false) (hr : raw ≠ []) (hb : raw.head? ≠ some '[') :
    parseAuthority raw d =
      match Delimited.rcut ':' raw with
      | some (host, port) =>
        if ':' ∈ host then some (raw, d)
        else if host = [] then none
        else (Text.parseU16 port).map fun port => (host, port)
      | none => some (raw, d) := by
  rw [parseAuthority, trim_eq_self h]
  split
  case h_1 => exact absurd rfl hr
  case h_2 => exact absurd rfl hb
  case h_3 => rfl

theorem parseAuthority_name (h : ∀ c ∈ host ++ port.elim [] (':' :: ·), isWhitespace c.toNat = false) (hh : host ≠ [])
    (hb : '[' ∉ host) (hc : ':' ∉ host) (hp : ∀ t ∈ port, ':' ∉ t) :
    parseAuthority (host ++ port.elim [] (':' :: ·)) d = (portOr port d).map (host, ·) := by
  have hb' : (host ++ port.elim [] (':' :: ·)).head? ≠ some '[' := by
    rw [List.head?_append_of_ne_nil _ hh]
    exact fun h => hb (mem_of_head? h)
  rw [parseAuthority_eq h (by simp [hh]) hb']
  cases port
  case none => simp [portOr, rcut_eq_none hc]
  case some t => simp [portOr, rcut_append (hp t rfl), hc, hh]

theorem not_mem_of_parseU16 {n : UInt16} (h : Text.parseU16 t = some n) : '@' ∉ t := by
  have hd {t : Text} (ht : (Text.decimal t).isSome) : '@' ∉ t := by
    unfold Text.decimal at ht
    split at ht
    case isTrue hd => exact not_mem_of_all hd.2 rfl
    case isFalse => cases ht
  unfold Text.parseU16 at h
  obtain ⟨m, hm, _⟩ := bind_eq_some_iff.mp h
  split at hm
  case h_1 ds => simpa using hd (isSome_of_eq_some hm)
  case h_2 => exact hd (isSome_of_eq_some hm)

theorem mem_of_parseAuthority {port : UInt16} (h : ∀ c ∈ raw, isWhitespace c.toNat = false) (hb : raw.head? ≠ some '[')
    (ha : '@' ∈ raw) (hp : parseAuthority raw d = some (host, port)) : '@' ∈ host := by
  rw [parseAuthority_eq h (ne_nil_of_mem ha) hb] at hp
  split at hp
  case h_2 => cases hp; exact ha
  case h_1 host' port' hr =>
    split at hp
    case isTrue => cases hp; exact ha
    case isFalse =>
      obtain ⟨-, hp⟩ := ite_none_left_eq_some.mp hp
      obtain ⟨n, hn, he⟩ := map_eq_some_iff.mp hp
      cases he
      rw [(rcut_eq_some hr).1] at ha
      simpa [not_mem_of_parseU16 hn] using ha

end Authority

namespace Uri

variable (u : Uri)

theorem host_not_mem (hc : c ∈ delimiters) : c ∉ u.host := by
  have h := u.host_chars
  split at h
  case isTrue => exact not_mem_of_all h (literalChar_delimiter hc)
  case isFalse => exact not_mem_of_all h (nameChar_delimiter (mem_cons_of_mem _ hc))

theorem mem_hostText (h : c ∈ u.hostText) : c = '[' ∨ c = ']' ∨ c ∈ u.host := by
  unfold hostText at h
  split at h
  case isTrue => simp at h; tauto
  case isFalse => exact .inr (.inr h)

theorem mem_authority (h : c ∈ u.authority) :
    (∃ t ∈ u.userinfo, c ∈ t) ∨ c = '@' ∨ c ∈ u.hostText ∨ c = ':' ∨ ∃ t ∈ u.port, c ∈ t := by
  simp only [authority, mem_append] at h
  rcases h with (h | h) | h
  · cases hu : u.userinfo
    case none => simp [hu] at h
    case some t => simp [hu] at h ⊢; tauto
  · exact .inr (.inr (.inl h))
  · cases hp : u.port
    case none => simp [hp] at h
    case some t => simp [hp] at h ⊢; tauto

theorem isWhitespace_authority : ∀ c ∈ u.authority, isWhitespace c.toNat = false := by
  intro c hc
  rcases u.mem_authority hc with ⟨t, ht, hc⟩ | rfl | hc | rfl | ⟨t, ht, hc⟩
  · have := all_eq_true.mp (u.userinfo_chars t ht) c hc
    exact isWhitespace_of_queryChar (by simp [queryChar, pathChar, this])
  · rfl
  · rcases u.mem_hostText hc with rfl | rfl | hc
    · rfl
    · rfl
    · have h := u.host_chars
      split at h
      case isTrue => exact isWhitespace_of_literalChar (all_eq_true.mp h c hc)
      case isFalse =>
        have := all_eq_true.mp h c hc
        exact isWhitespace_of_queryChar (by simp [queryChar, pathChar, userChar, this])
  · rfl
  · exact isWhitespace_of_isDigit (all_eq_true.mp (u.port_chars t ht) c hc)

theorem slash_not_mem_authority : '/' ∉ u.authority := by
  intro h
  rcases u.mem_authority h with ⟨t, ht, h⟩ | h | h | h | ⟨t, ht, h⟩
  · exact not_mem_of_all (u.userinfo_chars t ht) (userChar_delimiter (by decide)) h
  · cases h
  · rcases u.mem_hostText h with h | h | h
    · cases h
    · cases h
    · exact u.host_not_mem (by decide) h
  · cases h
  · exact not_mem_of_all (u.port_chars t ht) rfl h

theorem parseAuthority_of_no_userinfo (h : u.userinfo = none) :
    parseAuthority u.authority 80 = (portOr u.port 80).map (u.host, ·) := by
  have hw := u.isWhitespace_authority
  have hp : ∀ t ∈ u.port, ':' ∉ t := fun t ht => not_mem_of_all (u.port_chars t ht) rfl
  have hc := u.host_chars
  unfold authority hostText at hw ⊢
  rw [h, elim_none, nil_append] at hw ⊢
  cases hl : u.literal
  case true =>
    rw [hl] at hw
    simp only [if_true, cons_append, append_assoc] at hw ⊢
    exact parseAuthority_literal hw u.host_ne_nil (u.host_not_mem (by decide))
  case false =>
    rw [hl] at hw hc
    have hb : '[' ∉ u.host := u.host_not_mem (by decide)
    exact parseAuthority_name hw u.host_ne_nil hb (not_mem_of_all hc (nameChar_delimiter mem_cons_self)) hp

theorem parseAuthority_of_userinfo {host : Text} {port : UInt16} (h : u.userinfo = some t)
    (hp : parseAuthority u.authority 80 = some (host, port)) : host ≠ u.host := by
  have ha : u.authority = t ++ '@' :: (u.hostText ++ u.port.elim [] (':' :: ·)) := by simp [authority, h]
  have hb : u.authority.head? ≠ some '[' := by
    rw [ha]
    cases t
    case nil => exact fun h => absurd (Option.some.inj h) (by decide)
    case cons c t =>
      intro hc
      obtain rfl : c = '[' := Option.some.inj hc
      exact not_mem_of_all (u.userinfo_chars _ h) (userChar_delimiter (c := '[') (by decide)) mem_cons_self
  have hm : '@' ∈ host := mem_of_parseAuthority u.isWhitespace_authority hb (by rw [ha]; simp) hp
  rintro rfl
  exact u.host_not_mem (by decide) hm

theorem portOr_iff : (∃ n, portOr u.port 80 = some n ∧ n.toNat = u.portNumber) ↔
    ∀ t ∈ u.port, t ≠ [] ∧ u.portNumber < 2 ^ 16 := by
  cases hp : u.port
  case none => simp [portOr, portNumber, hp]
  case some t =>
    have hd := u.port_chars t hp
    have hplus : Text.parseU16 t = (Text.decimal t).bind fun n => if n < 2 ^ 16 then some (UInt16.ofNat n) else none := by
      unfold Text.parseU16
      split
      case h_1 => exact absurd mem_cons_self (not_mem_of_all hd rfl)
      case h_2 => rfl
    have hdec : Text.decimal t = if t = [] then none else some (t.foldl (fun n c => n * 10 + (c.toNat - 48)) 0) := by
      unfold Text.decimal
      by_cases h : t = [] <;> simp [h, hd]
    simp only [portOr, portNumber, hp, elim_some, hplus, hdec, mem_some_iff, forall_eq', bind_some]
    by_cases h : t = []
    case pos => simp [h]
    case neg =>
      simp only [h, if_false, bind_some, getD_some, ne_eq, not_false_eq_true, true_and]
      constructor
      case mp =>
        intro ⟨n, _, hn⟩
        have := n.toNat_lt
        omega
      case mpr =>
        intro hlt
        exact ⟨_, if_pos hlt, UInt16.toNat_ofNat_of_lt' hlt⟩

theorem splitPath_eq (h : u.path ≠ [] ∨ u.query = none) :
    splitPath (u.authority ++ u.path ++ u.queryText) = (u.authority, u.target) := by
  rw [splitPath, target]
  rcases u.path_absolute with hp | hp
  · have hq : u.queryText = [] := by rw [queryText, h.resolve_left (not_not_intro hp)]; rfl
    rw [hp, hq, append_nil, append_nil, cut_eq_none_iff.mpr u.slash_not_mem_authority]
    rfl
  · obtain ⟨p, hp⟩ := List.head?_eq_some_iff.mp hp
    rw [hp, append_assoc, cons_append, cut_append u.slash_not_mem_authority,
      if_neg (cons_ne_nil _ _)]
    rfl

-- A query without a path before it is taken for a part of the host.
theorem splitPath_ne (h : ¬(u.path ≠ [] ∨ u.query = none)) :
    (splitPath (u.authority ++ u.path ++ u.queryText)).2 ≠ u.target := by
  obtain ⟨hp, hq⟩ := not_or.mp h
  obtain ⟨t, ht⟩ := ne_none_iff_exists'.mp hq
  have hp := not_not.mp hp
  have htarget : u.target.length = t.length + 2 := by simp [target, queryText, hp, ht]
  intro he
  rw [← he, splitPath] at htarget
  split at htarget
  case h_1 a path hc =>
    have hl := (cut_eq_some_iff.mp hc).1
    have hlen := congrArg List.length hl
    simp only [queryText, hp, ht, append_nil, elim_some, length_append, length_cons] at hlen htarget
    have ha : u.authority.length ≤ a.length := by
      by_contra hn
      have ha : a ++ ['/'] <+: u.authority ++ u.path ++ u.queryText := ⟨path, by rw [hl]; simp⟩
      have hu : u.authority <+: u.authority ++ u.path ++ u.queryText := ⟨_, (append_assoc ..).symm⟩
      have hs := (prefix_of_prefix_length_le ha hu (by simp; omega)).subset
      exact u.slash_not_mem_authority (hs (by simp))
    omega
  case h_2 =>
    simp at htarget

end Uri

section Line

theorem stripPrefix_scheme (pat : Text) (hl : pat.length = t.length) (rest : Text) :
    Text.stripPrefix (pat ++ "://".toList) (t ++ "://".toList ++ rest) = if t = pat then some rest else none := by
  rw [Text.stripPrefix]
  split
  case isTrue h =>
    obtain ⟨z, hz⟩ := isPrefixOf_iff_prefix.mp h
    rw [append_assoc, append_assoc] at hz
    rw [if_pos (append_inj_left hz hl).symm, length_append, hl, ← length_append, drop_left]
  case isFalse h =>
    refine (if_neg ?_).symm
    rintro rfl
    exact h (List.isPrefixOf_iff_prefix.mpr (prefix_append _ rest))

variable (u : Uri) (q : UriRequest)

theorem Uri.length_scheme : u.scheme.length = 4 := by
  have := congrArg List.length (of_decide_eq_true u.http)
  simpa using this

theorem schemeless_eq : (Text.stripPrefix "http://".toList u.text).or (Text.stripPrefix "HTTP://".toList u.text) =
      if u.scheme = "http".toList ∨ u.scheme = "HTTP".toList then some (u.authority ++ u.path ++ u.queryText) else none := by
  have h₁ := stripPrefix_scheme "http".toList u.length_scheme.symm (u.authority ++ u.path ++ u.queryText)
  have h₂ := stripPrefix_scheme "HTTP".toList u.length_scheme.symm (u.authority ++ u.path ++ u.queryText)
  rw [Uri.text]
  change (Text.stripPrefix ("http".toList ++ "://".toList) _).or (Text.stripPrefix ("HTTP".toList ++ "://".toList) _) = _
  rw [h₁, h₂]
  by_cases h : u.scheme = "http".toList
  case pos => rw [if_pos h, if_pos (Or.inl h), some_or]
  case neg => rw [if_neg h, none_or, if_congr (or_iff_right h) rfl rfl]

theorem isWhitespace_scheme : ∀ c ∈ u.scheme, isWhitespace c.toNat = false := by
  intro c hc
  have hl : c.toLower ∈ "http".toList.map Char.toLower := by
    rw [← show u.scheme.map Char.toLower = _ from of_decide_eq_true u.http]
    exact mem_map_of_mem hc
  by_contra hw
  have hn : ¬ (65 ≤ c.toNat ∧ c.toNat ≤ 90) := by
    simp [isWhitespace] at hw
    omega
  have hc' : c.toLower = c := dif_neg hn
  rw [hc'] at hl
  exact hw (isWhitespace_of_mem (l := "http".toList.map Char.toLower) (by decide +kernel) (contains_iff_mem.mpr hl))

theorem isWhitespace_text : ∀ c ∈ u.text, isWhitespace c.toNat = false := by
  intro c hc
  simp only [Uri.text, mem_append] at hc
  rcases hc with (hc | hc) | (hc | hc) | hc
  · exact isWhitespace_scheme u c hc
  · exact isWhitespace_of_mem (l := "://".toList) (by decide) (contains_iff_mem.mpr hc)
  · exact u.isWhitespace_authority c hc
  · exact isWhitespace_of_queryChar (by simp [Uri.queryChar, all_eq_true.mp u.path_chars c hc])
  · unfold Uri.queryText at hc
    cases hq : u.query
    case none => simp [hq] at hc
    case some t =>
      rw [hq] at hc
      rcases mem_cons.mp hc with rfl | hc
      · rfl
      · exact isWhitespace_of_queryChar (all_eq_true.mp (u.query_chars t hq) c hc)

theorem splitWhitespace_line : Text.splitWhitespace q.line = [q.method, q.uri.text, q.version] := by
  have hne : q.uri.text ≠ [] := by simp [Uri.text]
  rw [Text.splitWhitespace, UriRequest.line, splitOnP_intercalate]
  · simp [q.method_isWord.1, q.version_isWord.1, hne]
  · rfl
  · exact cons_ne_nil _ _
  · simp only [forall_mem_cons]
    exact ⟨q.method_isWord.2, isWhitespace_text q.uri, q.version_isWord.2, fun _ h => absurd h not_mem_nil⟩

theorem parseRequestLine_line : parseRequestLine q.line = if Text.eqIgnoreAsciiCase q.method "CONNECT".toList then
      (parseAuthority q.uri.text 443).map fun x => ⟨q.method, x.1, x.2, none⟩
    else if q.uri.scheme = "http".toList ∨ q.uri.scheme = "HTTP".toList then
      let url := splitPath (q.uri.authority ++ q.uri.path ++ q.uri.queryText)
      (parseAuthority url.1 80).map fun x =>
        ⟨q.method, x.1, x.2, some (q.method ++ ' ' :: url.2 ++ ' ' :: q.version ++ ['\r', '\n'])⟩
    else none := by
  rw [parseRequestLine, splitWhitespace_line]
  dsimp only
  rw [schemeless_eq]
  split
  case isTrue => rfl
  case isFalse => split <;> rfl

end Line

-- Case by case, nothing but the plain form is read as what it says.
theorem UriRequest.readRight_iff (q : UriRequest) : q.ReadRight ↔ q.Plain := by
  unfold ReadRight
  rw [parseRequestLine_line]
  constructor
  case mp =>
    intro ⟨r, hr, hh, hn, hw⟩
    split at hr
    case isTrue =>
      obtain ⟨_, _, rfl⟩ := map_eq_some_iff.mp hr
      cases hw
    case isFalse hm =>
      obtain ⟨hs, hr⟩ := ite_none_right_eq_some.mp hr
      obtain ⟨⟨host, port⟩, ha, rfl⟩ := map_eq_some_iff.mp hr
      have ht : (splitPath (q.uri.authority ++ q.uri.path ++ q.uri.queryText)).2 = q.uri.target := by
        simpa using hw
      have hp : q.uri.path ≠ [] ∨ q.uri.query = none := by
        by_contra hp
        exact q.uri.splitPath_ne hp ht
      rw [q.uri.splitPath_eq hp] at ha
      have hu : q.uri.userinfo = none := by
        cases hu : q.uri.userinfo
        case none => rfl
        case some t => exact absurd hh (q.uri.parseAuthority_of_userinfo hu ha)
      rw [q.uri.parseAuthority_of_no_userinfo hu] at ha
      obtain ⟨n, hn', he⟩ := map_eq_some_iff.mp ha
      cases he
      exact ⟨hm, hs, hu, q.uri.portOr_iff.mp ⟨_, hn', hn⟩, hp⟩
  case mpr =>
    intro ⟨hm, hs, hu, hport, hp⟩
    obtain ⟨n, hn, hn'⟩ := q.uri.portOr_iff.mpr hport
    rw [if_neg hm, if_pos hs, q.uri.splitPath_eq hp]
    dsimp only
    rw [q.uri.parseAuthority_of_no_userinfo hu, hn]
    exact ⟨_, rfl, rfl, hn', rfl⟩

def UriRequest.queryOnly : UriRequest where
  method := "GET".toList
  uri :=
    { scheme := "http".toList
      userinfo := none
      literal := false
      host := ['a']
      port := none
      path := []
      query := some ['b']
      http := by decide
      userinfo_chars := by simp
      host_ne_nil := cons_ne_nil _ _
      host_chars := by decide +kernel
      port_chars := by simp
      path_absolute := .inl rfl
      path_chars := rfl
      query_chars := by decide +kernel }
  version := "HTTP/1.1".toList
  method_isWord := .of_all (by decide) (by decide +kernel)
  version_isWord := .of_all (by decide) (by decide +kernel)

theorem UriRequest.not_readRight : ¬ queryOnly.ReadRight := by
  intro ⟨r, hr, hh, _⟩
  have hp : (parseRequestLine queryOnly.line).map HttpRequestLine.authority = some "a?b".toList := by decide +kernel
  rw [hr, map_some, hh] at hp
  exact absurd hp (by decide)

end Engine.Socks
