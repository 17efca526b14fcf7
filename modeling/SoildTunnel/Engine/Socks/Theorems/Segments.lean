import SoildTunnel.Engine.Socks.Theorems.Routing
import SoildTunnel.Engine.Theorems.HttpHost
import SoildTunnel.Engine.Theorems.Tls

-- Whether the first read of a connection decides as all that the client sends first would.
namespace Engine

open Rust List Option

namespace Sniff

variable {cm : CaseMap} {p rest : Bytes} {v : Text}

-- Where some bytes end: behind the name, before any of it can be read, or inside the Host line.
inductive Cut
  | behind
  | before
  | inside (value : Text)
deriving DecidableEq

def cut (cm : CaseMap) (p : Bytes) : Cut :=
  if (tlsSni cm p).isSome then .behind
  else match brokenOff (headers p) with
    | some v => if (readHost cm v).isSome then .inside v else .before
    | none => if (hostValue (headers p)).isSome then .behind else .before

theorem headers_of_tls (r : Bytes) : headers (TLS_HANDSHAKE :: r) = [] := by
  have ht : Text.fromUtf8Lossy ((TLS_HANDSHAKE :: r).take PEEK_BUDGET) =
      Char.ofNat 0x16 :: Text.fromUtf8Lossy (r.take 4095) := by
    rw [PEEK_BUDGET, take_succ_cons, Text.fromUtf8Lossy, if_pos (by decide)]
    rfl
  have hl (line : Text) : looksLikeHttp (Char.ofNat 0x16 :: line) = false := rfl
  rw [headers, ht]
  cases hs : Text.splitCrlf (Text.fromUtf8Lossy (r.take 4095))
  case nil => exact absurd hs (splitCrlf_ne_nil _)
  case cons line lines =>
    rw [Text.splitCrlf, hs]
    · simp [hl]
    · intro t h
      cases h

-- Bytes that begin like a request are not taken for a hello, whatever follows.
theorem tlsSni_append_of_headers (h : headers p ≠ []) : tlsSni cm (p ++ rest) = none := by
  cases p
  case nil => exact absurd (by decide +kernel) h
  case cons b p =>
    have hb : b ≠ TLS_HANDSHAKE := by
      rintro rfl
      exact h (headers_of_tls p)
    exact if_pos hb

theorem hostname_append_of_headers (h : headers p ≠ []) :
    hostname cm (p ++ rest) = (hostValue (headers (p ++ rest))).bind (readHost cm) := by
  rw [hostname, tlsSni_append_of_headers h, none_or, httpHost_eq]

theorem hostname_of_headers (h : headers p ≠ []) : hostname cm p = (hostValue (headers p)).bind (readHost cm) := by
  have ha : hostname cm (p ++ []) = _ := hostname_append_of_headers h
  simpa using ha

theorem headers_ne_nil (h : hostValue (headers p) = some v) : headers p ≠ [] := by
  intro hn
  rw [hn] at h
  cases h

-- The three cases, in terms of what has come.
theorem cut_cases (cm : CaseMap) (p : Bytes) : (∃ n, tlsSni cm p = some n ∧ cut cm p = .behind) ∨
    (∃ v, hostValue (headers p) = some v ∧ brokenOff (headers p) = none ∧ cut cm p = .behind) ∨
    (hostname cm p = none ∧ cut cm p = .before) ∨
    ∃ v, brokenOff (headers p) = some v ∧ (readHost cm v).isSome ∧ cut cm p = .inside v := by
  unfold cut
  cases ht : tlsSni cm p
  case some n => exact .inl ⟨n, rfl, rfl⟩
  case none =>
    refine .inr ?_
    have hh : hostname cm p = (hostValue (headers p)).bind (readHost cm) := by
      rw [hostname, ht, none_or, httpHost_eq]
    cases hb : brokenOff (headers p)
    case some v =>
      rw [hostValue_of_brokenOff hb, bind_some] at hh
      cases hr : readHost cm v
      case none => exact .inr (.inl ⟨hh.trans hr, by simp [hr]⟩)
      case some n => exact .inr (.inr ⟨v, rfl, by simp [hr], by simp [hr]⟩)
    case none =>
      cases hv : hostValue (headers p)
      case none => exact .inr (.inl ⟨by rw [hh, hv]; rfl, rfl⟩)
      case some v => exact .inl ⟨v, rfl, rfl, rfl⟩

theorem hostname_of_behind (h : cut cm p = .behind) (rest : Bytes) : hostname cm (p ++ rest) = hostname cm p := by
  obtain ⟨n, hn, -⟩ | ⟨v, hv, hb, -⟩ | ⟨-, hc⟩ | ⟨v, -, -, hc⟩ := cut_cases cm p
  case inl => rw [hostname, hostname, hn, early_tlsSni (prefix_append p rest) cm n hn, some_or, some_or]
  case inr.inl =>
    have hn := headers_ne_nil hv
    obtain hn' | ⟨t, s, t', hc, ht, ht'⟩ := headers_append p rest
    · exact absurd hn' hn
    rw [hostname_append_of_headers hn, hostname_of_headers hn, hv, ht', hostValue_of_continued hc (ht ▸ hv) (ht ▸ hb)]
  all_goals cases h.symm.trans hc

theorem hostname_of_before (h : cut cm p = .before) : hostname cm p = none := by
  obtain ⟨_, -, hc⟩ | ⟨_, -, -, hc⟩ | ⟨hn, -⟩ | ⟨_, -, -, hc⟩ := cut_cases cm p
  case inr.inr.inl => exact hn
  all_goals cases h.symm.trans hc

theorem hostname_of_inside (h : cut cm p = .inside v) (rest : Bytes) :
    hostname cm p = readHost cm v ∧ (readHost cm v).isSome ∧
      ∃ w, hostValue (headers (p ++ rest)) = some w ∧ Extends v w ∧ hostname cm (p ++ rest) = readHost cm w := by
  obtain ⟨_, -, hc⟩ | ⟨_, -, -, hc⟩ | ⟨-, hc⟩ | ⟨u, hb, hr, hc⟩ := cut_cases cm p
  case inr.inr.inr =>
    cases h.symm.trans hc
    have hv := hostValue_of_brokenOff hb
    have hn := headers_ne_nil hv
    refine ⟨by rw [hostname_of_headers hn, hv, bind_some], hr, ?_⟩
    obtain hn' | ⟨t, s, t', hc, ht, ht'⟩ := headers_append p rest
    · exact absurd hn' hn
    obtain hx | ⟨w, hw, he⟩ := brokenOff_continued hc (ht ▸ hb)
    · rw [readHost_of_replacement hx] at hr
      cases hr
    · exact ⟨w, ht' ▸ hw, he, by rw [hostname_append_of_headers hn, ht', hw, bind_some]⟩
  all_goals cases h.symm.trans hc

end Sniff

namespace Socks

variable {cm : CaseMap} {set : RuleSet} {port : UInt16}

-- What a client sends first, in the pieces that its reads return.
structure Flight where
  segments : List Bytes
  nonempty : ∀ s ∈ segments, s ≠ []
  fits : segments.flatten.length ≤ Sniff.PEEK_BUDGET

namespace Flight

def bytes (f : Flight) : Bytes :=
  f.segments.flatten

def first (f : Flight) : Bytes :=
  f.segments.headD []

def read (f : Flight) : Read :=
  match f.segments with
  | [] => .timeout
  | s :: _ => .data s

theorem first_isPrefix (f : Flight) : f.first <+: f.bytes := by
  unfold first bytes
  cases f.segments
  case nil => exact prefix_rfl
  case cons s ss => exact prefix_append s ss.flatten

theorem readSniffHead_read (f : Flight) : readSniffHead f.read = some f.first := by
  have ⟨segments, nonempty, fits⟩ := f
  cases segments
  case nil => rfl
  case cons s ss =>
    have hs : s.length ≤ Sniff.PEEK_BUDGET := by simp at fits; omega
    simp [read, first, readSniffHead, take_of_length_le hs]

end Flight

theorem hostname_nil (cm : CaseMap) : Sniff.hostname cm [] = none := by
  have ht : Sniff.tlsSni cm [] = none := rfl
  have hl : ¬ Sniff.looksLikeHttp [] := by decide
  have hh : Sniff.httpHost cm [] = none := by
    simp only [Sniff.httpHost, take_nil, Text.fromUtf8Lossy, Text.splitCrlf, if_neg hl]
  rw [Sniff.hostname, ht, hh, or_none]

theorem named_ip {ip : IpAddr} {head : Bytes} (h : set.hasDomainRules) :
    named cm set true (.ip ip) head = Sniff.hostname cm head := by
  simp only [named, sniffs, h, Bool.and_self, if_true]
  split
  case isTrue hn => rw [hn, hostname_nil]
  case isFalse => rfl

-- The rules have the same to say about the connection with the one name and with the other.
def Alike (cm : CaseMap) (set : RuleSet) (port : UInt16) (ip : IpAddr) (shown meant : Option Text) : Prop :=
  match known cm set port shown, known cm set port meant with
  | none, none => True
  | some name, none | none, some name => set.NameAgrees cm port name ip
  | some name, some name' => set.NamesAgree cm port name name'

theorem decideRoute_alike {ip : IpAddr} {shown meant : Option Text} :
    decideRoute cm set (.ip ip) shown port = decideRoute cm set (.ip ip) meant port ↔
      Alike cm set port ip shown meant := by
  rw [decideRoute_eq, decideRoute_eq, restsOn_known, restsOn_known, Alike]
  cases known cm set port shown <;> cases known cm set port meant
  case none.none => simp
  case none.some => exact eq_comm.trans RuleSet.decide_name
  case some.none => exact RuleSet.decide_name
  case some.some => exact RuleSet.decide_names

-- Behind the name the first read may end anywhere. Where it ends before, the rules have to treat the
-- name like the address, and inside the Host line, unless only the port and the like are missing,
-- the piece of the name like the name.
def EndsWell (cm : CaseMap) (set : RuleSet) (port : UInt16) (ip : IpAddr) (f : Flight) : Prop :=
  match Sniff.cut cm f.first with
  | .behind => True
  | .before => Alike cm set port ip none (Sniff.hostname cm f.bytes)
  | .inside v =>
    (∃ w, Sniff.hostValue (Sniff.headers f.bytes) = some w ∧ Sniff.NameComplete v w) ∨
      Alike cm set port ip (Sniff.readHost cm v) (Sniff.hostname cm f.bytes)

theorem handleConnect_segments_iff (cm : CaseMap) (set : RuleSet) (h : set.hasDomainRules) (ip : IpAddr)
    (port : UInt16) (f : Flight) :
    handleConnect cm set true (.ip ip) port f.read =
        some (decideRoute cm set (.ip ip) (Sniff.hostname cm f.bytes) port) ↔
      EndsWell cm set port ip f := by
  have hs : sniffs set true (.ip ip) = true := by simp [sniffs, h]
  obtain ⟨rest, hr⟩ := f.first_isPrefix
  rw [handleConnect, if_pos hs, f.readSniffHead_read, map_some, some_inj, connectAction, named_ip h,
    decideRoute_alike, EndsWell]
  cases hc : Sniff.cut cm f.first
  case behind =>
    rw [← hr, Sniff.hostname_of_behind hc, ← decideRoute_alike]
    simp
  case before => rw [Sniff.hostname_of_before hc]
  case inside v =>
    obtain ⟨hf, hv, w, hw, he, hb⟩ := Sniff.hostname_of_inside hc rest
    rw [hr] at hw hb
    obtain ⟨n, hv⟩ := isSome_iff_exists.mp hv
    rw [hf]
    refine ⟨.inr, fun h => h.elim ?_ id⟩
    rintro ⟨w', hw', hn⟩
    cases hw.symm.trans hw'
    rw [hb, (Sniff.readHost_eq_iff he hv).mpr hn, hv, ← decideRoute_alike]

-- `GET / HTTP/1.1`, `Host: a.bc` and the empty line, cut inside the name, and behind its line.
def cutFlight : Flight where
  segments := ["GET / HTTP/1.1\r\nHost: a.b".toList, "c\r\n\r\n".toList].map Text.utf8
  nonempty := by decide +kernel
  fits := by decide +kernel

def lineFlight : Flight where
  segments := ["GET / HTTP/1.1\r\nHost: a.bc\r\n".toList, "\r\n".toList].map Text.utf8
  nonempty := by decide +kernel
  fits := by decide +kernel

theorem handleConnect_segments_line :
    namedRules.hasDomainRules ∧ Sniff.hostname .ascii lineFlight.bytes = some "a.bc".toList ∧
      handleConnect .ascii namedRules true (.ip (.v4 (.new 1 2 3 4))) 80 lineFlight.read =
        some (decideRoute .ascii namedRules (.ip (.v4 (.new 1 2 3 4)))
          (Sniff.hostname .ascii lineFlight.bytes) 80) := by
  have hc : Sniff.cut .ascii lineFlight.first = .behind := by decide +kernel
  refine ⟨rfl, by decide +kernel, (handleConnect_segments_iff _ _ rfl _ _ _).mpr ?_⟩
  rw [EndsWell, hc]
  trivial

theorem not_handleConnect_segments :
    ¬ handleConnect .ascii namedRules true (.ip (.v4 (.new 1 2 3 4))) 80 cutFlight.read =
      some (decideRoute .ascii namedRules (.ip (.v4 (.new 1 2 3 4)))
        (Sniff.hostname .ascii cutFlight.bytes) 80) := by
  have hc : handleConnect .ascii namedRules true (.ip (.v4 (.new 1 2 3 4))) 80 cutFlight.read =
      some .proxy := by decide +kernel
  have hw : decideRoute .ascii namedRules (.ip (.v4 (.new 1 2 3 4)))
      (Sniff.hostname .ascii cutFlight.bytes) 80 = .block := by decide +kernel
  rw [hc, hw]
  exact nofun

end Socks

end Engine
