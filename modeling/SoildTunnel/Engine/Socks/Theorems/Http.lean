import SoildTunnel.Engine.Socks.Http
import SoildTunnel.Engine.Socks.Theorems.Routing

-- The HTTP front end, compared with the SOCKS front end and over a whole connection of a client.
namespace Engine.Socks

open Rust List

-- One destination, asked for over SOCKS and by an HTTP CONNECT.
structure ConnectTwin where
  target : Target
  line : Text
  request : HttpRequestLine
  parsed : parseRequestLine line = some request
  connect : Text.eqIgnoreAsciiCase request.method "CONNECT".toList
  same : target = .domain request.authority ∨
    ∃ ip, parseIp request.authority = some ip ∧ target = .ip ip

-- The rules do not care whether a destination is given by a name or by its address: a name that is
-- written as an address, and a name that the client announces behind an address.
def NameIsAddress (cm : CaseMap) (set : RuleSet) (sniffEnabled : Bool) (port : UInt16) (head : Bytes) : Target → Prop
  | .domain name => ∀ ip, parseIp name = some ip → set.Indifferent cm (.domain name) (.ip ip) port
  | .ip ip => ∀ name ∈ named cm set sniffEnabled (.ip ip) head,
    set.Blocks cm (.domain name) port ∨ set.Directs cm (.domain name) port →
      set.Indifferent cm (.domain name) (.ip ip) port

section

variable {cm : CaseMap} {set : RuleSet} {sniffEnabled : Bool} {target : Target} {port : UInt16}

theorem handleConnect_data {bytes : Bytes} : handleConnect cm set sniffEnabled target port (.data bytes) =
      some (connectAction cm set sniffEnabled target port (bytes.take Sniff.PEEK_BUDGET)) := by
  unfold handleConnect
  split
  case isTrue => rfl
  case isFalse h => simp [connectAction, named, h]

theorem httpTarget_of_same (c : ConnectTwin) : c.target = httpTarget c.request.authority ∨
      ∃ ip, parseIp c.request.authority = some ip ∧ c.target = .domain c.request.authority ∧
        httpTarget c.request.authority = .ip ip := by
  cases hp : parseIp c.request.authority
  case none =>
    refine .inl ?_
    obtain h | ⟨ip, hip, -⟩ := c.same
    case inl => simp [httpTarget, hp, h]
    case inr => cases hp.symm.trans hip
  case some ip =>
    obtain h | ⟨ip', hip, h⟩ := c.same
    case inl => exact .inr ⟨ip, rfl, h, by simp [httpTarget, hp]⟩
    case inr => exact .inl (by simp [httpTarget, hip, h])

theorem seenAs_ip {ip : IpAddr} {head : Bytes} :
    set.Indifferent cm (seenAs cm set sniffEnabled (.ip ip) port head) (.ip ip) port ↔
      NameIsAddress cm set sniffEnabled port head (.ip ip) := by
  have hr := RuleSet.Indifferent.refl cm set (.ip ip) port
  simp only [seenAs, NameIsAddress]
  cases named cm set sniffEnabled (.ip ip) head
  case none => simpa [restsOn, hostOf] using hr
  case some name =>
    simp only [restsOn, Option.mem_some_iff, forall_eq']
    split
    case isTrue h => simp [h]
    case isFalse h => simpa [h, hostOf] using hr

end

-- `first` is what the client of the SOCKS request sends first.
theorem handleConnect_eq_httpAction_iff (cm : CaseMap) (set : RuleSet) (sniffEnabled : Bool) (c : ConnectTwin)
    (first : Bytes) :
    handleConnect cm set sniffEnabled c.target c.request.port (.data first) =
        some (httpAction cm set c.request) ↔
      NameIsAddress cm set sniffEnabled c.request.port (first.take Sniff.PEEK_BUDGET) c.target := by
  rw [handleConnect_data, Option.some_inj, connectAction_eq, httpAction, RuleSet.decide_eq_decide]
  obtain h | ⟨ip, hip, ht, hh⟩ := httpTarget_of_same c
  case inl =>
    rw [← h]
    cases ht : c.target
    case ip ip => exact seenAs_ip
    case domain name =>
      rw [seenAs_domain]
      refine iff_of_true (RuleSet.Indifferent.refl ..) fun ip hip => ?_
      have hn : c.request.authority = name := by
        obtain hs | ⟨_, _, hs⟩ := c.same
        case inl => exact (Target.domain.inj (ht.symm.trans hs)).symm
        case inr => cases ht.symm.trans hs
      rw [ht, hn, httpTarget, hip] at h
      cases h
  case inr =>
    rw [ht, hh, seenAs_domain]
    refine ⟨fun h ip' hip' => ?_, fun h => h ip hip⟩
    rw [hip, Option.some_inj] at hip'
    exact hip' ▸ h

def addressTwin : ConnectTwin where
  target := .ip (.v4 (.new 1 2 3 4))
  line := "CONNECT 1.2.3.4:80 HTTP/1.1".toList
  request := ⟨"CONNECT".toList, "1.2.3.4".toList, 80, none⟩
  parsed := by decide +kernel
  connect := by decide +kernel
  same := .inr ⟨.v4 (.new 1 2 3 4), by decide +kernel, rfl⟩

-- Over SOCKS the name in the first bytes is blocked. Over HTTP nobody looks.
theorem not_handleConnect_eq_httpAction :
    ¬ handleConnect .ascii namedRules true addressTwin.target addressTwin.request.port
        (.data (Text.utf8 "GET / HTTP/1.1\r\nHost: a.bc\r\n\r\n".toList)) =
      some (httpAction .ascii namedRules addressTwin.request) := by
  decide +kernel

structure HttpRequest where
  head : Bytes
  body : Bytes
  line : HttpRequestLine
  complete : readHead [] head = some (head, [])
  parsed : requestOf head = some line
  absolute : line.rewritten.isSome

namespace HttpRequest

def wire (r : HttpRequest) : Bytes :=
  r.head ++ r.body

def conn (cm : CaseMap) (set : RuleSet) (r : HttpRequest) : HttpConn :=
  ⟨r.line.authority, r.line.port, httpAction cm set r.line⟩

theorem head_ne_nil (r : HttpRequest) : r.head ≠ [] := by
  intro h
  have hc := r.complete
  simp [h, readHead] at hc

def stream (i : Nat) (rs : List HttpRequest) : List Owned :=
  (rs.zipIdx i).flatMap fun (r, k) => r.wire.map (·, k)

theorem stream_cons (i : Nat) (r : HttpRequest) (rs : List HttpRequest) :
    stream i (r :: rs) = r.head.map (·, i) ++ (r.body.map (·, i) ++ stream (i + 1) rs) := by
  simp [stream, wire]

theorem mem_stream {k : Nat} {r : HttpRequest} {rs : List HttpRequest} (i : Nat) (h : rs[k]? = some r) :
    ∃ b, (b, i + k) ∈ stream i rs := by
  have ⟨b, hb⟩ := exists_mem_of_ne_nil _ r.head_ne_nil
  refine ⟨b, mem_flatMap.mpr ⟨(r, i + k), ?_, ?_⟩⟩
  · simpa [mk_mem_zipIdx_iff_le_and_getElem?_sub] using h
  · simp [wire, hb]

end HttpRequest

theorem readHead_append {acc bytes head : Bytes} (rest : Bytes) (h : readHead acc bytes = some (head, [])) :
    readHead acc (bytes ++ rest) = some (head, rest) := by
  induction bytes generalizing acc
  case nil => simp [readHead] at h
  case cons b bytes ih =>
    simp only [readHead, cons_append] at h ⊢
    split at h
    case isTrue hs => simp_all
    case isFalse hs =>
      rw [if_neg hs]
      obtain ⟨hl, h⟩ := Option.ite_none_left_eq_some.mp h
      rw [if_neg hl, ih h]

namespace HttpClient

variable {cm : CaseMap} {set : RuleSet} {r : HttpRequest} {rs : List HttpRequest} {s s' : HttpClient}

def init (rs : List HttpRequest) : HttpClient where
  stream := HttpRequest.stream 0 rs

-- Whatever was sent went to where its own request was to go.
def Routed (cm : CaseMap) (set : RuleSet) (rs : List HttpRequest) (s : HttpClient) : Prop :=
  ∀ conn ∈ s.opened, ∀ o ∈ s.sent, ∀ r ∈ rs[o.2]?, conn = r.conn cm set

-- Nothing of the first request is let out, or all requests are for one authority and port.
def OneAuthority (cm : CaseMap) (set : RuleSet) : List HttpRequest → Prop
  | [] => True
  | r :: rs => httpAction cm set r.line = .block ∨
    ∀ r' ∈ rs, r'.line.authority = r.line.authority ∧ r'.line.port = r.line.port

theorem headStep_init : (init (r :: rs)).headStep cm set = { init (r :: rs) with
      stream := r.body.map (·, 0) ++ HttpRequest.stream 1 rs
      pc := if httpAction cm set r.line = .block then .done else .dial r.line r.head } := by
  have hr := readHead_append (r.body ++ (HttpRequest.stream 1 rs).map (·.1)) r.complete
  simp only [headStep, init, HttpRequest.stream_cons, map_append, map_map, Function.comp_def,
    map_id', hr, r.parsed]
  split
  case isTrue => simp
  case isFalse => simp

-- The first request alone says where a connection is opened.
structure FirstDecides (cm : CaseMap) (set : RuleSet) (r : HttpRequest) (rs : List HttpRequest)
    (s : HttpClient) : Prop where
  head : s.pc = .head → s = init (r :: rs)
  dial : ∀ request head, s.pc = .dial request head → request = r.line ∧ httpAction cm set r.line ≠ .block
  opened : ∀ conn ∈ s.opened, conn = r.conn cm set ∧ httpAction cm set r.line ≠ .block

theorem FirstDecides.step {l : HttpLabel} (hi : FirstDecides cm set r rs s) (h : s.step cm set l = some s') :
    FirstDecides cm set r rs s' := by
  cases l
  case head =>
    simp only [HttpClient.step] at h
    obtain ⟨hp, h⟩ := Option.ite_none_right_eq_some.mp h
    cases h
    rw [hi.head hp, headStep_init]
    refine ⟨?_, ?_, by simp [init]⟩
    all_goals split <;> simp_all
  case dial ok =>
    simp only [HttpClient.step] at h
    split at h
    case h_2 => cases h
    case h_1 request head hp =>
      have ⟨hl, hb⟩ := hi.dial request head hp
      cases ok
      case false => simp at h; subst h; exact ⟨by simp, by simp, hi.opened⟩
      case true => simp at h; subst h; exact ⟨by simp, by simp, by simp [HttpRequest.conn, hl, hb]⟩
  case preamble n =>
    simp only [HttpClient.step] at h
    split at h
    case h_2 => cases h
    case h_1 bytes hp =>
      cases h
      refine ⟨?_, ?_, hi.opened⟩
      all_goals split <;> simp
  case relay n m =>
    simp only [HttpClient.step] at h
    obtain ⟨-, h⟩ := Option.ite_none_right_eq_some.mp h
    cases h
    refine ⟨?_, ?_, hi.opened⟩
    all_goals split <;> simp
  case close => cases h; exact ⟨by simp, by simp, hi.opened⟩

theorem FirstDecides.routed (hi : FirstDecides cm set r rs s) (h : OneAuthority cm set (r :: rs)) :
    Routed cm set (r :: rs) s := by
  intro conn hc o _ r' hr
  have ⟨he, hb⟩ := hi.opened conn hc
  have hs : r'.line.authority = r.line.authority ∧ r'.line.port = r.line.port := by
    obtain rfl | hm := mem_cons.mp (mem_of_getElem? hr)
    case inl => exact ⟨rfl, rfl⟩
    case inr => exact h.resolve_left hb r' hm
  simp [he, HttpRequest.conn, httpAction, hs]

theorem exec_relay (rs : List HttpRequest) (hb : httpAction cm set r.line ≠ .block) : ∃ ls s',
    Lts.exec (step cm set) (init (r :: rs)) ls = some s' ∧ s'.opened = some (r.conn cm set) ∧
      ∀ o ∈ HttpRequest.stream 1 rs, o ∈ s'.sent := by
  let rest := r.body.map (·, 0) ++ HttpRequest.stream 1 rs
  let p := (preamble r.line r.head).length
  have hh : (init (r :: rs)).step cm set .head =
      some { init (r :: rs) with stream := rest, pc := .dial r.line r.head } := by
    simp [step, headStep_init, hb, rest, show (init (r :: rs)).pc = .head from rfl]
  have hx : Lts.exec (step cm set) (init (r :: rs))
      [.head, .dial true, .preamble p, .relay rest.length rest.length] =
        some ⟨[], .relay, some (r.conn cm set), (preamble r.line r.head).map (·, 0) ++ rest⟩ := by
    rw [Lts.exec_cons, hh]
    simp [step, p, init, HttpRequest.conn]
  exact ⟨_, _, hx, rfl, by simp +contextual [rest]⟩

theorem always_routed_iff (cm : CaseMap) (set : RuleSet) (rs : List HttpRequest) :
    (∀ ls, Lts.Always (step cm set) (Routed cm set rs) (init rs) ls) ↔ OneAuthority cm set rs := by
  cases rs
  case nil =>
    refine iff_of_true (fun ls => Lts.always_iff.mpr ?_) trivial
    intro _ _ s _ _ conn _ o _ r hr
    simp at hr
  case cons r rs =>
    constructor
    case mp =>
      intro h
      by_contra hn
      simp only [OneAuthority, not_or, not_forall] at hn
      obtain ⟨hb, r', hm, hd⟩ := hn
      obtain ⟨ls, s, hx, ho, hs⟩ := exec_relay rs hb
      obtain ⟨k, hk⟩ := mem_iff_getElem?.mp hm
      obtain ⟨b, hb⟩ := HttpRequest.mem_stream 1 hk
      have hr := (h ls).last hx
      have he := hr _ ho _ (hs _ hb) r' (by simpa [Nat.add_comm] using hk)
      simp only [HttpRequest.conn, HttpConn.mk.injEq] at he
      exact hd ⟨he.1.symm, he.2.1.symm⟩
    case mpr =>
      intro h ls
      refine Lts.always_iff.mpr fun ls₁ ls₂ s _ hx => FirstDecides.routed ?_ h
      exact Lts.exec_invariant (fun _ _ _ hi hs => hi.step hs) ⟨fun _ => rfl, by simp [init], by simp [init]⟩ hx

def blockSecond : RuleSet where
  block := [.domainFull "b".toList]

-- `GET http://a/` and `GET http://b/`, of which the rules block the second.
def getFirst : HttpRequest where
  head := Text.utf8 "GET http://a/ HTTP/1.1\r\n\r\n".toList
  body := []
  line := ⟨"GET".toList, "a".toList, 80, some "GET / HTTP/1.1\r\n".toList⟩
  complete := by decide +kernel
  parsed := by decide +kernel
  absolute := rfl

def getSecond : HttpRequest where
  head := Text.utf8 "GET http://b/ HTTP/1.1\r\n\r\n".toList
  body := []
  line := ⟨"GET".toList, "b".toList, 80, some "GET / HTTP/1.1\r\n".toList⟩
  complete := by decide +kernel
  parsed := by decide +kernel
  absolute := rfl

def keepAlive : List HttpLabel :=
  [.head, .dial true, .preamble 18, .relay 26 26]

instance : Decidable (Routed cm set rs s) :=
  inferInstanceAs (Decidable (∀ conn ∈ s.opened, ∀ o ∈ s.sent, ∀ r ∈ rs[o.2]?, conn = r.conn cm set))

theorem not_always_routed : ¬ Lts.Always (step .ascii blockSecond) (Routed .ascii blockSecond [getFirst, getSecond])
      (init [getFirst, getSecond]) keepAlive := by
  refine Lts.not_always ?_
  decide +kernel

end HttpClient

end Engine.Socks
