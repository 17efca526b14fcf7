import SoildTunnel.App.Theorems.DnsMap
import SoildTunnel.App.TunDns

-- What the cache of names knows, and when the answers for one application leave the others alone.
namespace App.TunBridge

open Kotlin List Option

structure Record where
  uid : Nat
  ip : Bytes
  domain : Text
  time : Nat
deriving DecidableEq

def newest (hist : List Record) (ip : Bytes) : Option Record :=
  hist.reverse.find? fun r => r.ip = ip

-- What the cache is for: the name that an address had in the latest answer, for five minutes.
def known (hist : List Record) (ip : Bytes) (now : Nat) : Option Text :=
  (newest hist ip).bind fun r => if now < r.time + DnsMap.DEFAULT_TTL_MILLIS then some r.domain else none

section Newest

variable {hist : List Record} {r : Record} {ip : Bytes}

theorem newest_append_self : newest (hist ++ [r]) r.ip = some r := by
  simp [newest]

theorem newest_append_ne (h : ip ≠ r.ip) : newest (hist ++ [r]) ip = newest hist ip := by
  simp [newest, Ne.symm h]

theorem mem_of_newest (h : newest hist ip = some r) : r ∈ hist ∧ r.ip = ip :=
  ⟨mem_reverse.mp (mem_of_find?_eq_some h), by simpa using List.find?_some h⟩

end Newest

namespace DnsMap

open App.DnsMap

def Rep (hist : List Record) (now : Nat) (m : DnsMap) : Prop :=
  ∃ used ⊆ hist.map Record.ip, DnsMap.Kept (fun ip => (newest hist ip).map fun r => (r.domain, r.time)) used now m

variable {hist : List Record} {now now' : Nat} {m : DnsMap} {pf : Platform}

theorem Rep.empty : Rep [] 0 .empty :=
  ⟨[], nil_subset _, .empty⟩

theorem Rep.later (h : Rep hist now m) (hn : now ≤ now') : Rep hist now' m := by
  obtain ⟨used, hu, h⟩ := h
  exact ⟨used, hu, h.later hn⟩

theorem Rep.put (h : Rep hist now m) {r : Record} (hr : r.time = now) {domain : Text}
    (hd : normalizedDomain pf domain = r.domain) (hne : r.domain ≠ []) :
    Rep (hist ++ [r]) now (putName pf m r.ip domain now) := by
  obtain ⟨used, hu, h⟩ := h
  refine ⟨r.ip :: used, ?_, ?_⟩
  · rw [map_append]
    exact cons_subset.mpr ⟨by simp, subset_append_of_subset_left _ hu⟩
  · have hl : (fun ip => (newest (hist ++ [r]) ip).map fun r => (r.domain, r.time)) =
        Function.update (fun ip => (newest hist ip).map fun r => (r.domain, r.time)) r.ip (some (r.domain, now)) := by
      funext ip
      by_cases hi : ip = r.ip
      case pos => rw [hi, Function.update_self, newest_append_self, map_some, hr]
      case neg => rw [Function.update_of_ne hi, newest_append_ne hi]
    rw [putName, hd, if_neg hne, hl]
    exact h.put r.ip r.domain

theorem get_eq (h : Rep hist now m) (hf : (hist.map Record.ip).dedup.length ≤ MAX_ENTRIES) (ip : Bytes) :
    (DnsMap.get m ip now).2 = known hist ip now ∧ Rep hist now (DnsMap.get m ip now).1 := by
  obtain ⟨used, hu, h⟩ := h
  have hmem {r : Record} (hr : newest hist ip = some r) : ip ∈ hist.map Record.ip := by
    have ⟨hm, he⟩ := mem_of_newest hr
    exact mem_map.mpr ⟨r, hm, he⟩
  obtain ⟨d, t, hg, hl, ht, hk⟩ | ⟨hg, hk, hn⟩ := h.get ip
  case inl =>
    obtain ⟨r, hr, he⟩ := map_eq_some_iff.mp hl
    cases he
    refine ⟨?_, ip :: used, cons_subset.mpr ⟨hmem hr, hu⟩, hk⟩
    rw [known, hr, bind_some, if_pos ht]
    exact hg
  case inr =>
    refine ⟨hg.trans ?_, used, hu, hk⟩
    rw [known]
    cases hr : newest hist ip
    case none => rfl
    case some r =>
      rw [bind_some, if_neg (not_lt.mpr ?_)]
      refine (hn r.domain r.time (by rw [hr, map_some])).resolve_right fun hc => ?_
      -- There are too few addresses for the address to make room.
      have hnd : (ip :: DnsMap.since used ip).Nodup := by
        refine nodup_cons.mpr ⟨fun hm => ?_, nodup_dedup _⟩
        simpa using mem_takeWhile_imp (mem_dedup.mp hm)
      have hsub : ip :: DnsMap.since used ip ⊆ (hist.map Record.ip).dedup := by
        refine cons_subset.mpr ⟨mem_dedup.mpr (hmem hr), fun x hx => mem_dedup.mpr (hu ?_)⟩
        exact (takeWhile_subset _) (mem_dedup.mp hx)
      have hle := (hnd.subperm hsub).length_le
      rw [length_cons] at hle
      omega

end DnsMap

theorem queue_of_not_connected {s : TcpSession} (h : s.connected = false) (g : Segment) :
    (s.handleFromTun g.seq g.payload g.flags).1.connected = false ∧
      (s.handleFromTun g.seq g.payload g.flags).1.queue = s.queue := by
  unfold TcpSession.handleFromTun
  split
  case isTrue => exact ⟨h, rfl⟩
  case isFalse =>
    split
    case isTrue => exact ⟨h, rfl⟩
    case isFalse =>
      rw [if_neg (by simp [h])]
      dsimp only
      split <;> exact ⟨h, rfl⟩

theorem firstPacket_eq_none (initialSeq mySeq : Nat) (segments : List Segment) :
    Settings.firstPacket initialSeq mySeq segments = none := by
  have hq : ∀ s : TcpSession, s.connected = false →
      (segments.foldl (fun s g => (s.handleFromTun g.seq g.payload g.flags).1) s).queue = s.queue := by
    induction segments
    case nil => exact fun _ _ => rfl
    case cons g segments ih =>
      intro s hs
      have ⟨hc, he⟩ := queue_of_not_connected hs g
      exact (ih _ hc).trans he
  unfold Settings.firstPacket
  dsimp only
  rw [hq _ rfl]
  rfl

namespace DnsEvent

variable (b : Settings) (A : Nat)

def record : DnsEvent → Option Record
  | .answer uid data index now =>
    (sniffDnsResponse b.platform data)[index]?.bind fun (ip, domain) =>
      let domain := DnsMap.normalizedDomain b.platform domain
      if domain = [] then none else some ⟨uid, ip, domain, now⟩
  | .tcp .. => none
  | .udp _ => none

def expected (hist : List Record) : DnsEvent → Option Request
  | .answer .. => none
  | .tcp start _ _ _ =>
    let ip := hostAddress start.serverIp
    let name := known hist ip start.now
    some ⟨start.uid, Settings.request (b.routingEngine.resolve ip start.serverPort name none none) start name⟩
  | .udp start =>
    let ip := hostAddress start.serverIp
    let name := known hist ip start.now
    if b.torMode ∨ start.serverPort = 443 ∧ name = none ∧ b.routingEngine.hasDomainRules then some ⟨start.uid, none⟩
    else some ⟨start.uid, Settings.request (b.routingEngine.resolve ip start.serverPort name none none) start name⟩

def expectedRequests (hist : List Record) : List DnsEvent → List Request
  | [] => []
  | e :: run => (e.expected b hist).toList ++ expectedRequests (hist ++ (e.record b).toList) run

variable {b} {hist : List Record} {m : DnsMap} {e : DnsEvent} {data : Bytes}

theorem answer_eq {uid index now : Nat} (h : m.Rep hist now) : (step b m (.answer uid data index now)).2 = none ∧
      (step b m (.answer uid data index now)).1.Rep (hist ++ (record b (.answer uid data index now)).toList) now := by
  simp only [step, record]
  cases hs : (sniffDnsResponse b.platform data)[index]?
  case none => simpa using h
  case some x =>
    refine ⟨rfl, ?_⟩
    by_cases hd : DnsMap.normalizedDomain b.platform x.2 = []
    case pos => simpa [hd, DnsMap.putName] using h
    case neg =>
      simp only [hd, bind_some, if_false]
      exact h.put rfl rfl hd

theorem tcp_eq {start : Start} (h : m.Rep hist start.now)
    (hf : (hist.map Record.ip).dedup.length ≤ DnsMap.MAX_ENTRIES) (initialSeq mySeq : Nat) (segments : List Segment) :
    (step b m (.tcp start initialSeq mySeq segments)).2 = expected b hist (.tcp start initialSeq mySeq segments) ∧
      (step b m (.tcp start initialSeq mySeq segments)).1.Rep hist start.now := by
  have ⟨hg, hr⟩ := DnsMap.get_eq h hf (hostAddress start.serverIp)
  simp only [step, Settings.tcpRun, firstPacket_eq_none, bind_none, ite_self, expected, ← hg]
  exact ⟨trivial, hr⟩

theorem udp_eq {start : Start} (h : m.Rep hist start.now)
    (hf : (hist.map Record.ip).dedup.length ≤ DnsMap.MAX_ENTRIES) :
    (step b m (.udp start)).2 = expected b hist (.udp start) ∧ (step b m (.udp start)).1.Rep hist start.now := by
  have ⟨hg, hr⟩ := DnsMap.get_eq h hf (hostAddress start.serverIp)
  simp only [step, Settings.udpRun, expected, ← hg]
  split
  case isTrue ht => exact ⟨by rw [if_pos (.inl ht)], h⟩
  case isFalse ht =>
    split
    case isTrue hc => exact ⟨by rw [if_pos (.inr hc)], hr⟩
    case isFalse hc => exact ⟨by rw [if_neg (not_or.mpr ⟨ht, hc⟩)], hr⟩

theorem step_eq (h : m.Rep hist e.now) (hf : (hist.map Record.ip).dedup.length ≤ DnsMap.MAX_ENTRIES) :
    (e.step b m).2 = e.expected b hist ∧ (e.step b m).1.Rep (hist ++ (e.record b).toList) e.now := by
  cases e
  case answer => exact answer_eq h
  case tcp start initialSeq mySeq segments =>
    refine (tcp_eq h hf initialSeq mySeq segments).imp id fun hr => ?_
    rw [record, toList_none, append_nil]
    exact hr
  case udp =>
    refine (udp_eq h hf).imp id fun hr => ?_
    rw [record, toList_none, append_nil]
    exact hr

variable {run : List DnsEvent}

-- The cache does what it is for, as long as nothing is forgotten and the clock is read in the order of
-- the operations.
theorem requests_eq {now : Nat} (h : m.Rep hist now) (ht : (now :: run.map DnsEvent.now).Pairwise (· ≤ ·))
    (hf : ((hist ++ run.filterMap (record b)).map Record.ip).dedup.length ≤ DnsMap.MAX_ENTRIES) :
    requests b m run = expectedRequests b hist run := by
  induction run generalizing hist m now
  case nil => rfl
  case cons e run ih =>
    have ⟨hn, ht⟩ := pairwise_cons.mp ht
    have h := h.later (hn e.now mem_cons_self)
    have hl : (hist.map Record.ip).dedup.length ≤ DnsMap.MAX_ENTRIES := by
      refine (((nodup_dedup _).subperm fun x hx => ?_).length_le).trans hf
      rw [map_append, mem_dedup]
      exact mem_append_left _ (mem_dedup.mp hx)
    have ⟨he, hs⟩ := step_eq (b := b) h hl
    have hf : ((hist ++ (e.record b).toList ++ run.filterMap (record b)).map Record.ip).dedup.length ≤
        DnsMap.MAX_ENTRIES := by
      rw [append_assoc]
      cases hc : e.record b <;> simpa [filterMap_cons, hc] using hf
    rw [requests, expectedRequests, ← he]
    exact congrArg _ (ih hs ht hf)

variable (b)

def isAnswerOf : DnsEvent → Bool
  | .answer uid _ _ _ => uid = A
  | .tcp .. => false
  | .udp _ => false

def purge (run : List DnsEvent) : List DnsEvent :=
  run.filter fun e => !e.isAnswerOf A

def others (l : List Request) : List Request :=
  l.filter fun r => r.uid ≠ A

def ofOthers (hist : List Record) : List Record :=
  hist.filter fun r => r.uid ≠ A

def start? : DnsEvent → Option Start
  | .answer .. => none
  | .tcp start _ _ _ => some start
  | .udp start => some start

-- Whenever a session of another application starts, the latest answers of the last five minutes say
-- the same of its address with and without the answers for the application.
def Quiet : List Record → List DnsEvent → Prop
  | _, [] => True
  | hist, e :: run =>
    (∀ start ∈ e.start?, start.uid ≠ A →
      known hist (hostAddress start.serverIp) start.now =
        known (ofOthers A hist) (hostAddress start.serverIp) start.now) ∧
    Quiet (hist ++ (e.record b).toList) run

variable {b A}

theorem expected_congr {hist' : List Record}
    (h : ∀ start ∈ e.start?, known hist (hostAddress start.serverIp) start.now =
      known hist' (hostAddress start.serverIp) start.now) :
    e.expected b hist = e.expected b hist' := by
  cases e
  case answer => rfl
  case tcp start _ _ _ => simp only [expected, h start rfl]
  case udp start => simp only [expected, h start rfl]

theorem others_expected (h : ∀ start ∈ e.start?, start.uid = A) : others A (e.expected b hist).toList = [] := by
  cases e
  case answer => rfl
  case tcp start _ _ _ => simp [expected, others, h start rfl]
  case udp start =>
    unfold expected
    dsimp only
    split <;> simp [others, h start rfl]

theorem uid_of_record {r : Record} (h : r ∈ e.record b) : r.uid = A ↔ e.isAnswerOf A := by
  cases e
  case answer uid data index now =>
    have ⟨x, _, hx⟩ := bind_eq_some_iff.mp h
    dsimp only at hx
    obtain ⟨-, hx⟩ := ite_none_left_eq_some.mp hx
    cases hx; simp [isAnswerOf]
  case tcp => cases h
  case udp => cases h

theorem purge_cons_of_answer (h : e.isAnswerOf A = true) : purge A (e :: run) = purge A run :=
  filter_cons_of_neg (by simp [h])

theorem purge_cons_of_not (h : e.isAnswerOf A = false) : purge A (e :: run) = e :: purge A run :=
  filter_cons_of_pos (by simp [h])

theorem others_cons : others A (expectedRequests b hist (e :: run)) =
      others A (e.expected b hist).toList ++ others A (expectedRequests b (hist ++ (e.record b).toList) run) :=
  filter_append ..

theorem others_purge_cons : others A (expectedRequests b (ofOthers A hist) (purge A (e :: run))) =
      others A (e.expected b (ofOthers A hist)).toList ++
        others A (expectedRequests b (ofOthers A (hist ++ (e.record b).toList)) (purge A run)) := by
  have ho : ofOthers A (hist ++ (e.record b).toList) = ofOthers A hist ++ ofOthers A (e.record b).toList :=
    filter_append ..
  cases ha : e.isAnswerOf A
  case true =>
    have he : e.expected b (ofOthers A hist) = none := by
      cases e
      case answer => rfl
      case tcp => cases ha
      case udp => cases ha
    have hr : ofOthers A (e.record b).toList = [] :=
      filter_eq_nil_iff.mpr fun r hr => by simpa using (uid_of_record (mem_toList.mp hr)).mpr ha
    rw [purge_cons_of_answer ha, he, ho, hr, append_nil]
    rfl
  case false =>
    have hr : ofOthers A (e.record b).toList = (e.record b).toList := by
      refine filter_eq_self.mpr fun r hr => ?_
      have hu : r.uid = A ↔ e.isAnswerOf A := uid_of_record (mem_toList.mp hr)
      simpa [ha] using hu
    rw [purge_cons_of_not ha, others_cons, ho, hr]

theorem others_purge (h : Quiet b A hist run) :
    others A (expectedRequests b hist run) = others A (expectedRequests b (ofOthers A hist) (purge A run)) := by
  induction run generalizing hist
  case nil => rfl
  case cons e run ih =>
    have ⟨hq, h⟩ := h
    have he : others A (e.expected b hist).toList = others A (e.expected b (ofOthers A hist)).toList := by
      by_cases hs : ∀ start ∈ e.start?, start.uid ≠ A
      case pos => rw [expected_congr fun start h => hq start h (hs start h)]
      case neg =>
        have hs : ∀ start ∈ e.start?, start.uid = A := by
          cases hx : e.start? <;> simp_all
        rw [others_expected hs, others_expected hs]
    rw [others_cons, others_purge_cons, he, ih h]

-- Two runs that differ in the answers for one application only.
def SameBut (A : Nat) (run run' : List DnsEvent) : Prop :=
  purge A run = purge A run'

-- The clock is read in the order of the operations.
def Timed (run : List DnsEvent) : Prop :=
  (run.map DnsEvent.now).Pairwise (· ≤ ·)

-- There are no more addresses in the answers than the cache has room for.
def Few (b : Settings) (run : List DnsEvent) : Prop :=
  ((run.filterMap (record b)).map Record.ip).dedup.length ≤ DnsMap.MAX_ENTRIES

theorem requests_empty (ht : Timed run) (hf : Few b run) : requests b .empty run = expectedRequests b [] run :=
  requests_eq .empty (pairwise_cons.mpr ⟨fun _ _ => Nat.zero_le _, ht⟩) hf

theorem others_requests (b : Settings) (A : Nat) (run run' : List DnsEvent) (h : SameBut A run run')
    (ht : Timed run) (ht' : Timed run') (hf : Few b run) (hf' : Few b run') (hq : Quiet b A [] run)
    (hq' : Quiet b A [] run') : others A (requests b .empty run) = others A (requests b .empty run') := by
  rw [requests_empty ht hf, requests_empty ht' hf', others_purge hq, others_purge hq', h]

def reply : Bytes :=
  [0, 0, 0x81, 0x80, 0, 1, 0, 1, 0, 0, 0, 0, 1, 97, 0, 0, 1, 0, 1, 0xc0, 12, 0, 1, 0, 1, 0, 0, 0, 60, 0, 4, 1, 2, 3, 4]

def asciiPlatform : Platform where
  decode := List.map UInt8.toUInt16
  lowercase := id

theorem skipLabels_eq {pos : Nat} {l : UInt8} (pointers : Bool) (h : data[pos]? = some l) :
    skipLabels data pointers pos =
      if l = 0 then pos + 1
      else if pointers && 0xc0 ≤ l then pos + 2
      else skipLabels data pointers (pos + l.toNat + 1) := by
  rw [skipLabels]
  split
  case h_1 hn => cases h.symm.trans hn
  case h_2 hl =>
    cases h.symm.trans hl
    rfl

theorem appendLabels_eq {pf : Platform} {pos : Nat} {l : UInt8} (domain : Text) (h : data[pos]? = some l) :
    appendLabels pf data domain pos =
      if l = 0 then some domain
      else if data.length < pos + 1 + l.toNat then none
      else
        appendLabels pf data ((if domain = [] then domain else domain ++ [DnsMap.dot]) ++
          pf.decode ((data.drop (pos + 1)).take l.toNat)) (pos + l.toNat + 1) := by
  rw [appendLabels]
  split
  case h_1 hn => cases h.symm.trans hn
  case h_2 hl =>
    cases h.symm.trans hl
    rfl

theorem sniff_reply : sniffDnsResponse asciiPlatform reply = [([1, 2, 3, 4], [97])] := by
  have hs : skipLabels reply true 12 = 15 := by
    have h : skipLabels reply true 14 = 15 := skipLabels_eq true (show reply[14]? = some 0 from rfl)
    exact (skipLabels_eq true (show reply[12]? = some 1 from rfl)).trans h
  have hd : appendLabels asciiPlatform reply [] 12 = some [97] := by
    have h : appendLabels asciiPlatform reply [97] 14 = some [97] :=
      appendLabels_eq [97] (show reply[14]? = some 0 from rfl)
    exact (appendLabels_eq [] (show reply[12]? = some 1 from rfl)).trans h
  have hn : extractDomainName asciiPlatform reply = some [97] := by
    rw [extractDomainName, if_neg (by decide), hd]
    rfl
  have hq : skipQuestions reply 1 12 = 19 := by
    change skipLabels reply true 12 + 4 = 19
    rw [hs]
  unfold sniffDnsResponse
  rw [if_neg (by decide), hn, show getShort reply 2 = some 0x8180 from rfl, show getShort reply 4 = some 1 from rfl,
    show getShort reply 6 = some 1 from rfl]
  dsimp only
  rw [if_neg (by decide), hq]
  decide +kernel

def plainSettings : Settings where
  platform := asciiPlatform
  routingEngine := .empty
  sniffDomain _ _ := none
  torMode := false

def answered : DnsEvent := .answer 1 reply 0 0
def connects (ip : Bytes) : DnsEvent := .tcp ⟨2, ip, 443, 1⟩ 0 0 []

theorem record_answered : answered.record plainSettings = some ⟨1, [1, 2, 3, 4], [97], 0⟩ := by
  have h : (sniffDnsResponse asciiPlatform reply)[0]? = some ([1, 2, 3, 4], [97]) := by rw [sniff_reply]; rfl
  simp only [answered, DnsEvent.record, plainSettings, h]
  decide

theorem records_answered (ip : Bytes) :
    [answered, connects ip].filterMap (DnsEvent.record plainSettings) = [⟨1, [1, 2, 3, 4], [97], 0⟩] := by
  rw [filterMap_cons, record_answered]
  rfl

theorem few_answered (ip : Bytes) : DnsEvent.Few plainSettings [answered, connects ip] := by
  rw [DnsEvent.Few, records_answered]
  decide

theorem timed_answered (ip : Bytes) : DnsEvent.Timed [answered, connects ip] := by
  simp [DnsEvent.Timed, answered, connects, DnsEvent.now]

theorem expected_answered (ip : Bytes) : DnsEvent.expectedRequests plainSettings [] [answered, connects ip] =
      [⟨2, some ((known [⟨1, [1, 2, 3, 4], [97], 0⟩] (hostAddress ip) 1).elim (.address ip) .domain)⟩] := by
  rw [DnsEvent.expectedRequests, record_answered]
  rfl

theorem others_requests_elsewhere : others 1 (requests plainSettings .empty [answered, connects [5, 6, 7, 8]]) =
      others 1 (requests plainSettings .empty [connects [5, 6, 7, 8]]) := by
  refine others_requests _ _ _ _ rfl (timed_answered _) (by simp [Timed]) (few_answered _) (Nat.zero_le _) ?_ ?_
  · rw [Quiet, record_answered]
    refine ⟨nofun, fun start hs _ => ?_, trivial⟩
    cases hs
    decide
  · exact ⟨fun _ _ _ => rfl, trivial⟩

-- The same with the address from the answer.
theorem not_others_requests : ¬ ∀ (b : Settings) (A : Nat) (run run' : List DnsEvent), SameBut A run run' →
      others A (requests b .empty run) = others A (requests b .empty run') := by
  intro h
  have h := h plainSettings 1 [answered, connects [1, 2, 3, 4]] [connects [1, 2, 3, 4]] rfl
  rw [requests_empty (timed_answered _) (few_answered _), expected_answered,
    requests_empty (by simp [Timed]) (Nat.zero_le _)] at h
  exact absurd h (by decide)

end DnsEvent

end App.TunBridge
