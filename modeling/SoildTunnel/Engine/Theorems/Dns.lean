import SoildTunnel.Engine.Dns

-- Where the addresses of the resolver come from.
namespace Engine.Dns

open Rust List

variable {servers : List SocketAddr} {name : Text} {a : Answer}

-- What an answer's source is known to be, whichever way it came.
abbrev Answer.From (P : SocketAddr → Prop) (a : Answer) : Prop :=
  ∃ s, a.source = some s ∧ P s

theorem from_inbox {queries : List (SocketAddr × UInt16)} {closed : Bool} {inbox : List (SocketAddr × Bytes)}
    (h : receive name queries closed inbox = .ok a) : a.From (· ∈ inbox.map Prod.fst) := by
  induction inbox
  case nil => cases h
  case cons x inbox ih =>
    unfold receive at h
    split at h
    case isTrue =>
      split at h
      case h_1 => cases h; exact ⟨x.1, rfl, mem_cons_self⟩
      case h_2 => cases h
    case isFalse =>
      have ⟨s, hs, hm⟩ := ih h
      exact ⟨s, hs, mem_cons_of_mem x.1 hm⟩

theorem from_attempts {last : Failure} {l : List (SocketAddr × Attempt)} (h : attempts name last l = .ok a) :
    a.From (· ∈ l.map Prod.fst) := by
  induction l generalizing last
  case nil => cases h
  case cons x l ih =>
    unfold attempts at h
    split at h
    case h_1 => cases h; exact ⟨x.1, rfl, mem_cons_self⟩
    case h_2 =>
      have ⟨s, hs, hm⟩ := ih h
      exact ⟨s, hs, mem_cons_of_mem x.1 hm⟩

theorem mem_of_mem_queries {u : Udp} {s : SocketAddr} (h : s ∈ (u.queries servers).map Prod.fst) : s ∈ servers := by
  obtain ⟨q, hq, rfl⟩ := mem_map.mp h
  obtain ⟨x, hx, rfl⟩ := mem_map.mp hq
  exact (mem_zipIdx' (mem_of_mem_filter hx)).2 ▸ getElem_mem _

theorem from_servers {w : World} (hw : w.Honest servers) (h : dnsAnswer .plain servers name w = .ok a) :
    a.From (· ∈ servers) := by
  unfold dnsAnswer at h
  rw [if_pos rfl] at h
  dsimp only at h
  split at h
  case h_1 => cases h
  case h_2 u hu =>
    split at h
    case h_1 b hb =>
      cases h
      unfold dnsExchange at hb
      split at hb
      case isTrue => cases hb
      case isFalse =>
        have ⟨s, hs, hm⟩ := from_inbox hb
        obtain ⟨x, hx, rfl⟩ := mem_map.mp hm
        exact ⟨x.1, hs, mem_of_mem_queries (hw u hu x hx)⟩
    case h_2 =>
      have ⟨s, hs, hm⟩ := from_attempts h
      rw [map_map] at hm
      obtain ⟨x, hx, rfl⟩ := mem_map.mp hm
      exact ⟨x.1, hs, (mem_zipIdx' hx).2 ▸ getElem_mem _⟩

def reply : Bytes :=
  [0, 0, 0x81, 0x80, 0, 1, 0, 1, 0, 0, 0, 0, 1, 97, 0, 0, 1, 0, 1, 0xc0, 12, 0, 1, 0, 1, 0, 0, 0, 60, 0, 4, 1, 2, 3, 4]

theorem reply_matches : dnsResponseMatches reply 0 ['a'] QTYPE_A := by
  decide +kernel

theorem parseDnsA_reply : parseDnsA reply = some (.v4 (.new 1 2 3 4)) := by
  have h₁ : skipName reply 12 = some 15 := by
    have h : skipName reply 14 = some 15 := skipName_bind reply 14
    exact (skipName_bind reply 12).trans h
  have h₂ : skipName reply 19 = some 21 := skipName_bind reply 19
  have hq : skipQuestions reply (u16At reply 4) 12 = some 19 := by
    change (skipName reply 12).bind _ = _
    rw [h₁]
    rfl
  have ha : firstAddress reply (u16At reply 6) 19 = some (.v4 (.new 1 2 3 4)) := by
    change (skipName reply 19).bind _ = _
    rw [h₂]
    decide +kernel
  rw [parseDnsA, if_neg (by decide), hq]
  exact ha

def answersFirst (s : SocketAddr) : World where
  encrypted := none
  udp := some ⟨fun _ => 0, fun _ => true, [(s, reply)], false⟩
  tcp _ := ⟨0, false, [], false⟩

theorem queries_answersFirst {u : Udp} {s : SocketAddr} (hu : (answersFirst s).udp = some u) :
    u.queries servers = servers.map fun server => (server, 0) := by
  cases hu
  simp only [Udp.queries, filter_true]
  change (servers.zipIdx.map ((fun server => (server, (0 : UInt16))) ∘ Prod.fst)) = _
  rw [← map_map, zipIdx_map_fst]

theorem answersFirst_honest {s : SocketAddr} (h : s ∈ servers) : (answersFirst s).Honest servers := by
  intro u hu x hx
  rw [queries_answersFirst hu, map_map]
  cases hu
  rw [mem_singleton.mp hx]
  exact mem_map.mpr ⟨s, h, rfl⟩

theorem dnsAnswer_answersFirst {s : SocketAddr} (h : s ∈ servers) :
    dnsAnswer .plain servers ['a'] (answersFirst s) = .ok ⟨some s, .v4 (.new 1 2 3 4)⟩ := by
  have hq := @queries_answersFirst servers _ s rfl
  have hne : servers ≠ [] := ne_nil_of_mem h
  have hm : (servers.map fun server => (server, (0 : UInt16))).any
      fun q => dnsResponseMatches reply q.2 ['a'] QTYPE_A := by
    simpa [reply_matches] using ⟨s, h⟩
  simp only [dnsAnswer, dnsExchange, answersFirst, if_pos] at hq ⊢
  rw [hq]
  simp only [map_eq_nil_iff, hne, if_false, receive, hm, if_true, parseDnsA_reply]

theorem forall_from_iff {P : SocketAddr → Prop} :
    (∀ name w, w.Honest servers → ∀ a, dnsAnswer .plain servers name w = .ok a → a.From P) ↔ ∀ s ∈ servers, P s := by
  constructor
  case mp =>
    intro h s hs
    have ⟨s', he, hp⟩ := h ['a'] (answersFirst s) (answersFirst_honest hs) _ (dnsAnswer_answersFirst hs)
    exact Option.some.inj he ▸ hp
  case mpr =>
    intro h name w hw a ha
    have ⟨s, he, hs⟩ := from_servers hw ha
    exact ⟨s, he, h s hs⟩

-- Who may answer: any sender, as long as the datagram fits a query.
section Sender

variable {queries : List (SocketAddr × UInt16)}

def fitsQuery (name : Text) (queries : List (SocketAddr × UInt16)) (x : SocketAddr × Bytes) : Bool :=
  queries.any fun q => dnsResponseMatches x.2 q.2 name QTYPE_A

-- The datagram comes from the server that was asked under its number.
def Asked (name : Text) (queries : List (SocketAddr × UInt16)) (x : SocketAddr × Bytes) : Prop :=
  ∃ id, (x.1, id) ∈ queries ∧ dnsResponseMatches x.2 id name QTYPE_A

theorem receive_eq_ok_iff {closed : Bool} {inbox : List (SocketAddr × Bytes)} :
    receive name queries closed inbox = .ok a ↔
      ∃ x, inbox.find? (fitsQuery name queries) = some x ∧ a.source = some x.1 ∧ parseDnsA x.2 = some a.ip := by
  induction inbox
  case nil => simp [receive]
  case cons x inbox ih =>
    by_cases hf : fitsQuery name queries x
    case neg =>
      rw [List.find?_cons_of_neg hf, ← ih]
      simp only [fitsQuery] at hf
      rw [receive, if_neg hf]
    case pos =>
      rw [List.find?_cons_of_pos hf]
      simp only [fitsQuery] at hf
      rw [receive, if_pos hf]
      obtain ⟨source, ip⟩ := a
      cases hp : parseDnsA x.2 <;> simp [hp, eq_comm]

-- An address that is returned was in the first datagram that fits a query, and that one comes from
-- the server which was asked.
def Genuine (servers : List SocketAddr) (name : Text) (u : Udp) (a : Answer) : Prop :=
  ∃ x, u.inbox.find? (fitsQuery name (u.queries servers)) = some x ∧ a.source = some x.1 ∧
    parseDnsA x.2 = some a.ip ∧ Asked name (u.queries servers) x

-- Nothing else is looked at, so it is up to the senders.
theorem dnsExchange_genuine_iff (servers : List SocketAddr) (name : Text) (u : Udp) :
    (∀ a, dnsExchange servers name u = .ok a → Genuine servers name u a) ↔
      ∀ x, u.inbox.find? (fitsQuery name (u.queries servers)) = some x → (parseDnsA x.2).isSome →
        Asked name (u.queries servers) x := by
  constructor
  case mp =>
    intro h x hx hp
    have ⟨ip, hip⟩ := Option.isSome_iff_exists.mp hp
    have hq : u.queries servers ≠ [] := by
      intro he
      have := List.find?_some hx
      rw [he] at this
      cases this
    have hr : dnsExchange servers name u = .ok ⟨some x.1, ip⟩ := by
      rw [dnsExchange, if_neg hq, receive_eq_ok_iff]
      exact ⟨x, hx, rfl, hip⟩
    have ⟨y, hy, _, _, ha⟩ := h _ hr
    cases hx.symm.trans hy
    exact ha
  case mpr =>
    intro h a ha
    unfold dnsExchange at ha
    split at ha
    case isTrue => cases ha
    case isFalse =>
      have ⟨x, hx, hs, hp⟩ := receive_eq_ok_iff.mp ha
      exact ⟨x, hx, hs, hp, h x hx (by rw [hp]; rfl)⟩

def resolver : SocketAddr :=
  ⟨.v4 (.new 1 1 1 1), 53⟩

def stranger : SocketAddr :=
  ⟨.v4 (.new 6 6 6 6), 53⟩

def forgedReply : Udp :=
  ⟨fun _ => 0, fun _ => true, [(stranger, reply)], false⟩

theorem dnsExchange_forgedReply :
    dnsExchange [resolver] ['a'] forgedReply = .ok ⟨some stranger, .v4 (.new 1 2 3 4)⟩ := by
  have hq : forgedReply.queries [resolver] = [(resolver, 0)] := rfl
  have hm : fitsQuery ['a'] [(resolver, 0)] (stranger, reply) := by simp [fitsQuery, reply_matches]
  rw [dnsExchange, hq, if_neg (cons_ne_nil _ _), receive_eq_ok_iff]
  exact ⟨(stranger, reply), List.find?_cons_of_pos hm, rfl, parseDnsA_reply⟩

theorem not_dnsExchange_genuine :
    ¬ ∀ a, dnsExchange [resolver] ['a'] forgedReply = .ok a → Genuine [resolver] ['a'] forgedReply a := by
  intro h
  have ⟨x, _, hs, _, id, hq, _⟩ := h _ dnsExchange_forgedReply
  have hr : x.1 = resolver := (Prod.mk.inj (mem_singleton.mp hq)).1
  have hx : stranger = x.1 := Option.some.inj hs
  exact absurd (hx.trans hr) (by decide)

end Sender

end Engine.Dns
