import SoildTunnel.App.TunBridge

-- What of the data of the sessions comes out of the queue that they share.
namespace App.TunBridge

open List Option

def TunPacket.dataOf (i : Nat) : TunPacket → Option (Nat × Bytes)
  | .tcp j segment => if j = i ∧ segment.payload ≠ [] then some (segment.seq, segment.payload) else none
  | .udp _ => none

def TunPacket.isData : TunPacket → Bool
  | .tcp _ segment => segment.payload ≠ []
  | .udp _ => false

variable {p : TunPacket}

theorem TunPacket.isData_eq_false : p.isData = false ↔ ∀ i, p.dataOf i = none := by
  cases p
  case tcp j segment => simp [isData, dataOf]
  case udp => simp [isData, dataOf]

variable {i : Nat} {x : Nat × Bytes}

theorem TunPacket.dataOf_ne_nil (h : p.dataOf i = some x) : x.2 ≠ [] := by
  cases p
  case udp => cases h
  case tcp j segment =>
    simp only [dataOf] at h
    split at h
    case isTrue hp => cases h; exact hp.2
    case isFalse => cases h

-- Segments that follow one another from a first sequence number on.
def Contiguous : Nat → List (Nat × Bytes) → Prop
  | _, [] => True
  | start, (seq, payload) :: rest => seq = seqMask start ∧ Contiguous (start + payload.length) rest

variable {out : List (Nat × Bytes)}

theorem contiguous_append {start : Nat} : Contiguous start (out ++ [x]) ↔
      Contiguous start out ∧ x.1 = seqMask (start + (out.flatMap (·.2)).length) := by
  induction out generalizing start
  case nil => simp [Contiguous]
  case cons y out ih => simp [Contiguous, ih, and_assoc, Nat.add_assoc]

-- The segments of a flow are the bytes that were read, but for those that are not segments yet.
structure Flow.Intact (f : Flow) (out : List (Nat × Bytes)) : Prop where
  contiguous : Contiguous f.start out
  complete : out.flatMap (·.2) ++ f.buffer = f.read

variable {f : Flow}

theorem Flow.Intact.not_erase {out' : List (Nat × Bytes)}
    (h : f.Intact (out ++ x :: out')) (hx : x.2 ≠ []) : ¬ f.Intact (out ++ out') := by
  intro h'
  have hl := congrArg List.length (h.complete.trans h'.complete.symm)
  have := length_pos_iff.mpr hx
  simp only [flatMap_append, flatMap_cons, length_append] at hl
  omega

-- As long as the reader runs, the next sequence number is that of the first byte in its buffer.
structure Flow.Numbered (f : Flow) : Prop where
  mySeq : f.ended = false → f.tcp.mySeq = seqMask (f.start + (f.read.length - f.buffer.length))
  buffer : f.buffer.length ≤ f.read.length
  ended : f.ended → f.buffer = []

variable {payload : Option Bytes} {flags : UInt8} {seq : Nat}

namespace TcpSession

theorem accept_mySeq (s : TcpSession) (seq : Nat) (payload : Option Bytes) (flags : UInt8) :
    (s.accept seq payload flags).1.mySeq = s.mySeq := by
  unfold accept
  split
  case isTrue => split <;> rfl
  case isFalse =>
    split
    case h_1 => rfl
    case h_2 =>
      split
      case isTrue => split <;> rfl
      case isFalse => rfl

theorem handleFromTun_mySeq (s : TcpSession) (seq : Nat) (payload : Option Bytes) (flags : UInt8) :
    (s.handleFromTun seq payload flags).1.mySeq = s.mySeq := by
  unfold handleFromTun
  split
  case isTrue => rfl
  case isFalse =>
    split
    case isTrue => rfl
    case isFalse =>
      split
      case isTrue => exact accept_mySeq ..
      case isFalse => split <;> rfl

theorem accept_ack {s : TcpSession} {ack : TcpSegment}
    (h : (s.accept seq payload flags).2 = some ack) : ack.payload = [] := by
  unfold accept at h
  split at h
  case isTrue => split at h <;> cases h <;> rfl
  case isFalse =>
    split at h
    case h_1 => cases h
    case h_2 =>
      split at h
      case isTrue => split at h <;> cases h; rfl
      case isFalse => cases h; rfl

theorem handleFromTun_ack {s : TcpSession} {ack : TcpSegment}
    (h : (s.handleFromTun seq payload flags).2 = some ack) : ack.payload = [] := by
  unfold handleFromTun at h
  split at h
  case isTrue => cases h
  case isFalse =>
    split at h
    case isTrue => cases h
    case isFalse =>
      split at h
      case isTrue => exact accept_ack h
      case isFalse => cases h

end TcpSession

namespace Bridge

variable {b b' : Bridge} {l : BridgeLabel}

def output (b : Bridge) (i : Nat) : List (Nat × Bytes) :=
  (b.written ++ b.writing.toList ++ b.tunOutputQueue.items).filterMap (TunPacket.dataOf i)

def Intact (b : Bridge) : Prop :=
  ∀ (i : Nat) (f : Flow), b.flows[i]? = some f → f.Intact (b.output i)

-- Data are offered to a queue with room, and what is thrown out or fails to be written is no data.
def KeepsData (b : Bridge) : BridgeLabel → Prop
  | .chunk _ => b.tunOutputQueue.items.length < 32768
  | .evict _ => ∀ p ∈ b.tunOutputQueue.items.head?, p.isData = false
  | .write false => ∀ p ∈ b.writing, p.isData = false
  | _ => True

structure Numbered (b : Bridge) : Prop where
  flows : ∀ f ∈ b.flows, f.Numbered
  known : ∀ i ≥ b.flows.length, b.output i = []
  critical : ∀ p ∈ b.evicting ++ b.retrying, p.isData = false

variable {critical : Bool}

theorem enqueueTun_output (h : p.dataOf i = none) : (b.enqueueTun p critical).output i = b.output i := by
  unfold enqueueTun
  split
  case h_1 q ho =>
    obtain ⟨-, hq⟩ := Bounded.offer_eq_some ho
    simp [output, hq, h]
  case h_2 => split <;> rfl

theorem enqueueTun_flows : (b.enqueueTun p critical).flows = b.flows := by
  unfold enqueueTun
  split
  case h_1 => rfl
  case h_2 => split <;> rfl

theorem enqueueTun_critical {q : TunPacket} (h : critical → p.isData = false)
    (hb : ∀ p ∈ b.evicting ++ b.retrying, p.isData = false)
    (hq : q ∈ (b.enqueueTun p critical).evicting ++ (b.enqueueTun p critical).retrying) : q.isData = false := by
  unfold enqueueTun at hq
  split at hq
  case h_1 => exact hb q hq
  case h_2 =>
    split at hq
    case isTrue hc =>
      simp only [mem_append, mem_singleton] at hq
      obtain (hq | rfl) | hq := hq
      case inl.inl => exact hb q (mem_append_left _ hq)
      case inl.inr => exact h hc
      case inr => exact hb q (mem_append_right _ hq)
    case isFalse => exact hb q hq

theorem Intact.enqueueTun (h : p.isData = false) (hb : b.Intact) : (b.enqueueTun p critical).Intact := by
  intro i f hf
  rw [enqueueTun_flows] at hf
  rw [enqueueTun_output (TunPacket.isData_eq_false.mp h i)]
  exact hb i f hf

theorem Numbered.enqueueTun (h : p.isData = false) (hb : b.Numbered) : (b.enqueueTun p critical).Numbered where
  flows := by rw [enqueueTun_flows]; exact hb.flows
  known i hi := by
    rw [enqueueTun_flows] at hi
    rw [enqueueTun_output (TunPacket.isData_eq_false.mp h i)]
    exact hb.known i hi
  critical q hq := enqueueTun_critical (fun _ => h) hb.critical hq

theorem Intact.setFlow (hb : b.Intact) (hf : f.Intact (b.output i)) : (b.setFlow i f).Intact := by
  intro j g hg
  simp only [Bridge.setFlow, List.getElem?_set] at hg
  split at hg
  case isTrue hj =>
    split at hg
    case isTrue => cases hg; exact hj ▸ hf
    case isFalse => cases hg
  case isFalse => exact hb j g hg

theorem Numbered.setFlow (hb : b.Numbered) (hf : f.Numbered) : (b.setFlow i f).Numbered where
  flows g hg := (mem_or_eq_of_mem_set hg).elim (hb.flows g) (· ▸ hf)
  known j hj := hb.known j (by simpa [Bridge.setFlow] using hj)
  critical := hb.critical

theorem Intact.setTcp (hb : b.Intact) (tcp : TcpSession) (hf : b.flows[i]? = some f) :
    (b.setFlow i { f with tcp }).Intact :=
  hb.setFlow { hb i f hf with }

theorem Numbered.setTcp {tcp : TcpSession} (hb : b.Numbered) (hf : b.flows[i]? = some f)
    (ht : tcp.mySeq = f.tcp.mySeq) : (b.setFlow i { f with tcp }).Numbered := by
  have hn := hb.flows f (mem_of_getElem? hf)
  exact hb.setFlow ⟨fun he => ht.trans (hn.mySeq he), hn.buffer, hn.ended⟩

theorem chunk_output {j : Nat} (ho : b.tunOutputQueue.items.length < 32768) :
    ((b.enqueueTun p false).setFlow i f).output j = b.output j ++ (p.dataOf j).toList := by
  unfold enqueueTun
  split
  case h_1 q hq =>
    obtain ⟨-, hq⟩ := Bounded.offer_eq_some hq
    cases hp : p.dataOf j <;> simp [output, setFlow, hq, hp]
  case h_2 hq => exact absurd (Bounded.offer_eq_none.mp hq) (not_le.mpr ho)

theorem maxPayload_pos (mtu : Nat) (version : Version) : 0 < maxPayload mtu version := by
  cases version <;> simp [maxPayload]

theorem Numbered.of_output (hb : b.Numbered) (hf : b'.flows = b.flows) (ho : ∀ i, b.output i = [] → b'.output i = [])
    (hc : ∀ p ∈ b'.evicting ++ b'.retrying, p.isData = false) : b'.Numbered where
  flows := hf ▸ hb.flows
  known i hi := ho i (hb.known i (hf ▸ hi))
  critical := hc

theorem Intact.of_output (hb : b.Intact) (hf : b'.flows = b.flows) (ho : ∀ i, b'.output i = b.output i) :
    b'.Intact := by
  intro i f h
  rw [ho]
  exact hb i f (hf ▸ h)

-- A packet is lost. That goes well exactly when it has no data.
theorem intact_erase_iff {front back : Nat → List (Nat × Bytes)} (hn : b.Numbered) (hb : b.Intact)
    (hf : b'.flows = b.flows) (ho : ∀ i, b.output i = front i ++ ((p.dataOf i).toList ++ back i))
    (ho' : ∀ i, b'.output i = front i ++ back i) : b'.Intact ↔ p.isData = false := by
  constructor
  case mp =>
    intro hb'
    refine TunPacket.isData_eq_false.mpr fun i => ?_
    by_contra hp
    obtain ⟨x, hx⟩ := ne_none_iff_exists'.mp hp
    have hox : b.output i = front i ++ x :: back i := by simp [ho, hx]
    have hi : i < b.flows.length := by
      by_contra hi
      have he := hn.known i (by omega)
      simp [hox] at he
    have hfi := List.getElem?_eq_getElem hi
    have hint := hb i _ hfi
    rw [hox] at hint
    refine hint.not_erase (TunPacket.dataOf_ne_nil hx) ?_
    rw [← ho']
    exact hb' i _ (by rw [hf]; exact hfi)
  case mpr =>
    intro hp
    refine hb.of_output hf fun i => ?_
    rw [ho, ho', TunPacket.isData_eq_false.mp hp i, toList_none, nil_append]

theorem numbered_erase {front back : Nat → List (Nat × Bytes)} (hn : b.Numbered)
    (hf : b'.flows = b.flows) (ho : ∀ i, b.output i = front i ++ ((p.dataOf i).toList ++ back i))
    (ho' : ∀ i, b'.output i = front i ++ back i) (hc : ∀ p ∈ b'.evicting ++ b'.retrying, p.isData = false) :
    b'.Numbered := by
  refine hn.of_output hf (fun i hi => ?_) hc
  simp only [ho, append_eq_nil_iff] at hi
  rw [ho', hi.1, hi.2.2, append_nil]

theorem output_poll {q : Bounded TunPacket 32768} (h : b.tunOutputQueue.poll = some (p, q)) (i : Nat) :
    b.output i = (b.written ++ b.writing.toList).filterMap (TunPacket.dataOf i) ++
      ((p.dataOf i).toList ++ q.items.filterMap (TunPacket.dataOf i)) := by
  rw [output, Bounded.poll_eq_some h, filterMap_append]
  cases hp : p.dataOf i <;> simp [hp]

section Chunk

variable {i : Nat} {f : Flow}

theorem chunkLen_pos (hne : f.buffer ≠ []) : 0 < b.chunkLen f :=
  lt_min (maxPayload_pos ..) (length_pos_iff.mpr hne)

theorem chunkPacket_dataOf (hne : f.buffer ≠ []) (j : Nat) : (b.chunkPacket i f).dataOf j =
    if i = j then some (f.tcp.mySeq, f.buffer.take (b.chunkLen f)) else none := by
  have hp := chunkLen_pos (b := b) hne
  simp [chunkPacket, TunPacket.dataOf, hne, hp.ne']

theorem mySeq_eq (hn : f.Numbered) (hf : f.Intact out) (hne : f.buffer ≠ []) :
    f.tcp.mySeq = seqMask (f.start + (out.flatMap (·.2)).length) := by
  have he : f.ended = false := by
    by_contra h
    exact hne (hn.ended (by simpa using h))
  have hl := congrArg List.length hf.complete
  rw [length_append] at hl
  rw [hn.mySeq he, ← hl, Nat.add_sub_cancel]

theorem chunkFlow_intact (hn : f.Numbered) (hf : f.Intact out) (hne : f.buffer ≠ []) :
    (b.chunkFlow f).Intact (out ++ [(f.tcp.mySeq, f.buffer.take (b.chunkLen f))]) where
  contiguous := contiguous_append.mpr ⟨hf.contiguous, mySeq_eq hn hf hne⟩
  complete := by simpa [chunkFlow] using hf.complete

theorem chunkFlow_not_intact (hf : f.Intact out) (hne : f.buffer ≠ []) : ¬ (b.chunkFlow f).Intact out := by
  intro h
  have hl := congrArg List.length (hf.complete.trans h.complete.symm)
  have hp := chunkLen_pos (b := b) hne
  have := length_pos_iff.mpr hne
  simp only [chunkFlow, length_append, length_drop] at hl
  omega

theorem chunkFlow_numbered (hn : f.Numbered) (hne : f.buffer ≠ []) : (b.chunkFlow f).Numbered where
  mySeq he := by
    have hb := hn.buffer
    have hc : b.chunkLen f ≤ f.buffer.length := min_le_right ..
    simp only [chunkFlow, hn.mySeq he, length_drop, seqMask, Nat.mod_add_mod]
    congr 1
    omega
  buffer := by
    have := hn.buffer
    simp only [chunkFlow, length_drop]
    omega
  ended he := absurd (hn.ended he) hne

theorem chunk_intact_iff (hn : b.Numbered) (hb : b.Intact) (hf : b.flows[i]? = some f) (hne : f.buffer ≠ []) :
    (b.chunk i f).Intact ↔ b.tunOutputQueue.items.length < 32768 := by
  have hi : i < b.flows.length := (List.getElem?_eq_some_iff.mp hf).1
  have hflow : (b.chunk i f).flows[i]? = some (b.chunkFlow f) := by
    simp [chunk, setFlow, enqueueTun_flows, hi]
  by_cases ho : b.tunOutputQueue.items.length < 32768
  case pos =>
    refine iff_of_true (fun j g hg => ?_) ho
    rw [chunk, chunk_output ho, chunkPacket_dataOf hne]
    by_cases hj : i = j
    case pos =>
      subst hj
      cases hflow.symm.trans hg
      rw [if_pos rfl]
      exact chunkFlow_intact (hn.flows f (mem_of_getElem? hf)) (hb i f hf) hne
    case neg =>
      rw [if_neg hj, toList_none, append_nil]
      simp only [chunk, setFlow, enqueueTun_flows, List.getElem?_set_ne hj] at hg
      exact hb j g hg
  case neg =>
    refine iff_of_false (fun h => ?_) ho
    have hq : b.enqueueTun (b.chunkPacket i f) false = b := by
      simp [enqueueTun, Bounded.offer_eq_none.mpr (not_lt.mp ho)]
    have hint := h i _ hflow
    rw [chunk, hq] at hint
    exact chunkFlow_not_intact (hb i f hf) hne hint

theorem chunk_numbered (hn : b.Numbered) (hf : b.flows[i]? = some f) (hne : f.buffer ≠ []) :
    (b.chunk i f).Numbered := by
  have hi : i < b.flows.length := (List.getElem?_eq_some_iff.mp hf).1
  refine Numbered.setFlow ⟨?_, fun j hj => ?_, fun q hq => ?_⟩
    (chunkFlow_numbered (hn.flows f (mem_of_getElem? hf)) hne)
  · rw [enqueueTun_flows]
    exact hn.flows
  · rw [enqueueTun_flows] at hj
    rw [enqueueTun_output (by rw [chunkPacket_dataOf hne, if_neg (by omega)])]
    exact hn.known j hj
  · exact enqueueTun_critical (by simp) hn.critical hq

end Chunk

section Steps

variable {i k : Nat} {f : Flow}

theorem fromTun_keeps (hn : b.Numbered) (hb : b.Intact)
    (h : b.step (.fromTun i seq payload flags) = some b') : b'.Numbered ∧ b'.Intact := by
  obtain ⟨f, hf, rfl⟩ := map_eq_some_iff.mp h
  have hn' := hn.setTcp hf (f.tcp.handleFromTun_mySeq seq payload flags)
  have hb' := hb.setTcp (f.tcp.handleFromTun seq payload flags).1 hf
  simp only
  split
  case h_2 => exact ⟨hn', hb'⟩
  case h_1 ack ha =>
    have hd : (TunPacket.tcp i ack).isData = false := by
      simp [TunPacket.isData, TcpSession.handleFromTun_ack ha]
    exact ⟨hn'.enqueueTun hd, hb'.enqueueTun hd⟩

theorem Numbered.addFlow (hn : b.Numbered) (hf : f.Numbered) : Numbered { b with flows := b.flows ++ [f] } where
  flows g hg := (mem_append.mp hg).elim (hn.flows g) (mem_singleton.mp · ▸ hf)
  known i hi := hn.known i (by simp at hi; omega)
  critical := hn.critical

theorem Intact.addFlow (hb : b.Intact) (hn : b.Numbered) (hf : f.Intact []) :
    Intact { b with flows := b.flows ++ [f] } := by
  intro i g hg
  obtain hi | hi := lt_or_ge i b.flows.length
  case inl => exact hb i g (by rwa [List.getElem?_append_left hi] at hg)
  case inr =>
    rw [List.getElem?_append_right hi] at hg
    obtain rfl : f = g := mem_singleton.mp (mem_of_getElem? hg) |>.symm
    have ho : Bridge.output { b with flows := b.flows ++ [f] } i = [] := hn.known i hi
    rwa [ho]

theorem opened_keeps {version : Version} {initialSeq mySeq : Nat} (hn : b.Numbered) (hb : b.Intact)
    (h : b.step (.opened version initialSeq mySeq) = some b') : b'.Numbered ∧ b'.Intact := by
  cases h
  have hd : (TunPacket.tcp b.flows.length
      ⟨seqMask mySeq, (TcpSession.opened initialSeq mySeq).myAck, 0x12, []⟩).isData = false := by
    simp [TunPacket.isData]
  refine ⟨(hn.enqueueTun hd).addFlow ⟨fun _ => ?_, le_rfl, nofun⟩,
    (hb.enqueueTun hd).addFlow (hn.enqueueTun hd) ⟨trivial, rfl⟩⟩
  simp [TcpSession.opened, seqMask]

theorem read_keeps {bytes : Bytes} (hn : b.Numbered) (hb : b.Intact)
    (h : b.step (.read i bytes) = some b') : b'.Numbered ∧ b'.Intact := by
  obtain ⟨f, hf, h⟩ := bind_eq_some_iff.mp h
  obtain ⟨hg, h⟩ := ite_none_left_eq_some.mp h
  cases h
  obtain ⟨he, hbuf, -⟩ : ¬ f.ended ∧ f.buffer = [] ∧ _ := by simpa only [not_or, not_not] using hg
  have hfn := hn.flows f (mem_of_getElem? hf)
  have hfi := hb i f hf
  refine ⟨hn.setFlow ⟨fun h => ?_, by simp, fun h => absurd h he⟩, hb.setFlow ⟨hfi.contiguous, ?_⟩⟩
  · simpa [hbuf] using hfn.mySeq h
  · simpa [hbuf] using hfi.complete

theorem ended_keeps {error : Bool} (hn : b.Numbered) (hb : b.Intact)
    (h : b.step (.ended i error) = some b') : b'.Numbered ∧ b'.Intact := by
  obtain ⟨f, hf, h⟩ := bind_eq_some_iff.mp h
  obtain ⟨hg, h⟩ := ite_none_left_eq_some.mp h
  cases h
  obtain ⟨he, hbuf⟩ : ¬ f.ended ∧ f.buffer = [] := by simpa only [not_or, not_not] using hg
  have hfn := hn.flows f (mem_of_getElem? hf)
  have hfi := hb i f hf
  unfold Bridge.ended
  split
  case isTrue => exact ⟨hn.setFlow ⟨nofun, hfn.buffer, fun _ => hbuf⟩, hb.setFlow { hfi with }⟩
  case isFalse =>
    have hd : (TunPacket.tcp i ⟨f.tcp.mySeq, f.tcp.myAck, 0x11, []⟩).isData = false := by simp [TunPacket.isData]
    refine ⟨(hn.enqueueTun hd).setFlow ⟨nofun, hfn.buffer, fun _ => hbuf⟩, (hb.enqueueTun hd).setFlow ?_⟩
    rw [enqueueTun_output (TunPacket.isData_eq_false.mp hd i)]
    exact { hfi with }

theorem poll_keeps (hn : b.Numbered) (hb : b.Intact) (h : b.step (.poll i) = some b') : b'.Numbered ∧ b'.Intact := by
  obtain ⟨f, hf, h⟩ := bind_eq_some_iff.mp h
  obtain ⟨⟨_, queue⟩, -, rfl⟩ := map_eq_some_iff.mp h
  exact ⟨hn.setTcp hf rfl, hb.setTcp _ hf⟩

theorem close_keeps (hn : b.Numbered) (hb : b.Intact) (h : b.step (.close i) = some b') :
    b'.Numbered ∧ b'.Intact := by
  obtain ⟨f, hf, rfl⟩ := map_eq_some_iff.mp h
  exact ⟨hn.setTcp hf rfl, hb.setTcp _ hf⟩

theorem critical_erase {packets : List TunPacket} {packet : TunPacket} {k : Nat} (hn : b.Numbered)
    (hp : packets = b.evicting ∨ packets = b.retrying) (hk : packets[k]? = some packet) :
    packet.isData = false ∧ ∀ p ∈ packets.eraseIdx k, p.isData = false := by
  have hc : ∀ p ∈ packets, p.isData = false := by
    intro p hm
    obtain rfl | rfl := hp
    case inl => exact hn.critical p (mem_append_left _ hm)
    case inr => exact hn.critical p (mem_append_right _ hm)
  exact ⟨hc _ (mem_of_getElem? hk), fun p hm => hc p (mem_of_mem_eraseIdx hm)⟩

theorem evict_step (hn : b.Numbered) (hb : b.Intact) (h : b.step (.evict k) = some b') :
    b'.Numbered ∧ (b'.Intact ↔ ∀ p ∈ b.tunOutputQueue.items.head?, p.isData = false) := by
  obtain ⟨packet, hk, rfl⟩ := map_eq_some_iff.mp h
  obtain ⟨hp, he⟩ := critical_erase hn (.inl rfl) hk
  have hc : ∀ p ∈ b.evicting.eraseIdx k ++ (b.retrying ++ [packet]), p.isData = false := by
    intro p hm
    simp only [mem_append, mem_singleton] at hm
    obtain hm | hm | rfl := hm
    case inl => exact he p hm
    case inr.inl => exact hn.critical p (mem_append_right _ hm)
    case inr.inr => exact hp
  cases hq : b.tunOutputQueue.poll
  case none =>
    refine ⟨hn.of_output rfl (fun i hi => hi) hc, iff_of_true (hb.of_output rfl fun i => rfl) ?_⟩
    simp [Bounded.poll_eq_none hq]
  case some r =>
    obtain ⟨p, q⟩ := r
    have ho (i : Nat) := output_poll hq i
    have ho' (i : Nat) : Bridge.output { b with
        tunOutputQueue := q
        evicting := b.evicting.eraseIdx k
        retrying := b.retrying ++ [packet] } i =
        (b.written ++ b.writing.toList).filterMap (TunPacket.dataOf i) ++ q.items.filterMap (TunPacket.dataOf i) := by
      simp [output]
    refine ⟨numbered_erase hn rfl ho ho' hc, Iff.trans (intact_erase_iff hn hb rfl ho ho') ?_⟩
    simp [Bounded.poll_eq_some hq]

theorem retry_keeps (hn : b.Numbered) (hb : b.Intact) (h : b.step (.retry k) = some b') :
    b'.Numbered ∧ b'.Intact := by
  obtain ⟨packet, hk, rfl⟩ := map_eq_some_iff.mp h
  obtain ⟨hp, he⟩ := critical_erase hn (.inr rfl) hk
  have ho (i : Nat) : Bridge.output { b with
      tunOutputQueue := (b.tunOutputQueue.offer packet).getD b.tunOutputQueue
      retrying := b.retrying.eraseIdx k } i = b.output i := by
    cases hq : b.tunOutputQueue.offer packet
    case none => rfl
    case some q => simp [output, Bounded.offer_eq_some hq, TunPacket.isData_eq_false.mp hp i]
  refine ⟨hn.of_output rfl (fun i hi => (ho i).trans hi) fun p hm => ?_, hb.of_output rfl ho⟩
  obtain hm | hm := mem_append.mp hm
  case inl => exact hn.critical p (mem_append_left _ hm)
  case inr => exact he p hm

theorem take_keeps (hn : b.Numbered) (hb : b.Intact) (h : b.step .take = some b') : b'.Numbered ∧ b'.Intact := by
  simp only [step] at h
  obtain ⟨hw, h⟩ := ite_none_right_eq_some.mp h
  obtain ⟨⟨p, q⟩, hq, rfl⟩ := map_eq_some_iff.mp h
  have ho (i : Nat) : Bridge.output { b with tunOutputQueue := q, writing := some p } i = b.output i := by
    simp [output, hw, Bounded.poll_eq_some hq]
  exact ⟨hn.of_output rfl (fun i hi => (ho i).trans hi) hn.critical, hb.of_output rfl ho⟩

theorem write_step {ok : Bool} (hn : b.Numbered) (hb : b.Intact) (h : b.step (.write ok) = some b') :
    b'.Numbered ∧ (b'.Intact ↔ b.KeepsData (.write ok)) := by
  obtain ⟨p, hw, rfl⟩ := map_eq_some_iff.mp h
  cases ok
  case true =>
    have ho (i : Nat) : Bridge.output { b with writing := none, written := b.written ++ [p] } i = b.output i := by
      simp [output, hw]
    exact ⟨hn.of_output rfl (fun i hi => (ho i).trans hi) hn.critical, iff_of_true (hb.of_output rfl ho) trivial⟩
  case false =>
    have ho (i : Nat) : b.output i = b.written.filterMap (TunPacket.dataOf i) ++
        ((p.dataOf i).toList ++ b.tunOutputQueue.items.filterMap (TunPacket.dataOf i)) := by
      cases hp : p.dataOf i <;> simp [output, hw, hp]
    have ho' (i : Nat) : Bridge.output { b with writing := none, written := b.written } i =
        b.written.filterMap (TunPacket.dataOf i) ++ b.tunOutputQueue.items.filterMap (TunPacket.dataOf i) := by
      simp [output]
    refine ⟨numbered_erase hn rfl ho ho' hn.critical, Iff.trans (intact_erase_iff hn hb rfl ho ho') ?_⟩
    simp [KeepsData, hw]

theorem step_intact (hn : b.Numbered) (hb : b.Intact) (h : b.step l = some b') :
    b'.Numbered ∧ (b'.Intact ↔ b.KeepsData l) := by
  have hk : b'.Numbered ∧ b'.Intact → b.KeepsData l → b'.Numbered ∧ (b'.Intact ↔ b.KeepsData l) :=
    fun h hk => ⟨h.1, iff_of_true h.2 hk⟩
  cases l
  case opened => exact hk (opened_keeps hn hb h) trivial
  case fromTun => exact hk (fromTun_keeps hn hb h) trivial
  case poll => exact hk (poll_keeps hn hb h) trivial
  case read => exact hk (read_keeps hn hb h) trivial
  case ended => exact hk (ended_keeps hn hb h) trivial
  case close => exact hk (close_keeps hn hb h) trivial
  case retry => exact hk (retry_keeps hn hb h) trivial
  case take => exact hk (take_keeps hn hb h) trivial
  case evict => exact evict_step hn hb h
  case write => exact write_step hn hb h
  case udp payload critical => cases h; exact hk ⟨hn.enqueueTun rfl, hb.enqueueTun rfl⟩ trivial
  case chunk i =>
    obtain ⟨f, hf, h⟩ := bind_eq_some_iff.mp h
    obtain ⟨hne, h⟩ := ite_none_left_eq_some.mp h
    cases h
    exact ⟨chunk_numbered hn hf hne, chunk_intact_iff hn hb hf hne⟩

end Steps

def occupied (mtu : Nat) (n : Fin (32768 + 1)) : Bridge where
  mtu := mtu
  tunOutputQueue := ⟨List.replicate n (.udp []), by simp; omega⟩

theorem occupied_output (mtu : Nat) (n : Fin (32768 + 1)) (i : Nat) : (occupied mtu n).output i = [] := by
  simp [output, occupied, TunPacket.dataOf]

theorem always_intact_iff (mtu : Nat) (n : Fin (32768 + 1)) (ls : List BridgeLabel) :
    Lts.Always step Intact (occupied mtu n) ls ↔ Lts.Admits step KeepsData (occupied mtu n) ls := by
  refine Lts.always_iff_admits (I := Numbered) ?_ ?_ ?_ ?_
  · exact fun b l b' hn hb h _ => (step_intact hn hb h).1
  · exact fun b l b' hn hb h => (step_intact hn hb h).2
  · exact ⟨by simp [occupied], fun i _ => occupied_output mtu n i, by simp [occupied]⟩
  · exact fun i f hf => by simp [occupied] at hf

def fullQueue : List BridgeLabel :=
  [.opened .v4 0 100000, .read 0 [1], .chunk 0]

theorem exec_fullQueue (ho : ∀ p, b.tunOutputQueue.offer p = none) (hf : b.flows = []) :
    ∃ b' f, Lts.exec step b fullQueue = some b' ∧ b'.flows[0]? = some f ∧ f.read = [1] ∧ f.buffer = [] ∧
      b'.output 0 = b.output 0 := by
  have hl : min (maxPayload b.mtu .v4) 1 = 1 := min_eq_right (maxPayload_pos ..)
  refine ⟨_, _, by simp [fullQueue, step, enqueueTun, setFlow, chunk, ho, hf]; rfl, by simp; rfl, ?_, ?_, ?_⟩
  · rfl
  · simp [chunkFlow, chunkLen, hl]
  · rfl

theorem not_always_intact : ¬ Lts.Always step Intact (occupied 1280 (Fin.last 32768)) fullQueue := by
  intro h
  have ho (p : TunPacket) : (occupied 1280 (Fin.last 32768)).tunOutputQueue.offer p = none :=
    Bounded.offer_eq_none.mpr (length_replicate ..).ge
  obtain ⟨b, f, hx, hf, hr, hb, hout⟩ := exec_fullQueue ho rfl
  have hc := (h.last hx 0 f hf).complete
  simp [hout, occupied_output, hr, hb] at hc

end Bridge

end App.TunBridge
