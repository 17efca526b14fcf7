import SoildTunnel.App.TunBridge

-- What a session of the bridge queues and acknowledges, against the stream of the client.
namespace App.TunBridge

open List

structure ClientStream where
  initialSeq : Nat
  bytes : Bytes

-- A segment of the stream, in any order and with any overlap; its last byte may come with a FIN.
structure StreamSegment (d : ClientStream) where
  offset : Nat
  length : Nat
  flags : UInt8
  fits : length < 2 ^ 16
  inside : offset + length ≤ d.bytes.length
  noReset : flags &&& RST = 0
  last : flags &&& FIN ≠ 0 → offset + length = d.bytes.length

namespace StreamSegment

variable {d : ClientStream}

def seq (g : StreamSegment d) : Nat :=
  seqMask (d.initialSeq + 1 + g.offset)

def bytes (g : StreamSegment d) : Bytes :=
  (d.bytes.drop g.offset).take g.length

def payload (g : StreamSegment d) : Option Bytes :=
  if g.length = 0 then none else some g.bytes

theorem length_bytes (g : StreamSegment d) : g.bytes.length = g.length := by
  have := g.inside
  simp [bytes]
  omega

end StreamSegment

-- A session with its history: the bytes put into its queue, how far `myAck` has moved (without the
-- wrap-around), and how far it had moved whenever an acknowledgement was sent.
structure Upload where
  tcp : TcpSession
  put : Bytes := []
  acked : Nat := 0
  acks : List Nat := []

inductive UploadLabel (d : ClientStream)
  | segment (g : StreamSegment d)
  | poll
  | close

namespace Upload

variable {d : ClientStream} {s s' : Upload} {l : UploadLabel d} {g : StreamSegment d}

def init (d : ClientStream) (mySeq : Nat) : Upload where
  tcp := .opened d.initialSeq mySeq

def handle (s : Upload) (g : StreamSegment d) : Upload :=
  let (tcp, ack) := s.tcp.handleFromTun g.seq g.payload g.flags
  let acked := s.acked + seqMask (tcp.myAck + 2 ^ 32 - s.tcp.myAck)
  { tcp
    put := s.put ++ (tcp.queue.items.drop s.tcp.queue.items.length).flatten
    acked
    acks := s.acks ++ if ack.isSome then [acked] else [] }

def step (s : Upload) : UploadLabel d → Option Upload
  | .segment g => some (s.handle g)
  | .poll => s.tcp.queue.poll.map fun (_, queue) => { s with tcp := { s.tcp with queue } }
  | .close => some { s with tcp := { s.tcp with isClosed := true } }

-- The queue has had the beginning of the stream, and that includes each byte of the stream that an
-- acknowledgement covers.
structure Sound (d : ClientStream) (s : Upload) : Prop where
  ordered : s.put <+: d.bytes
  covered : ∀ a ∈ s.acks, ∀ k < d.bytes.length, k < a → k < s.put.length

-- A segment with the expected number is the expected one: a FIN comes after everything else, and
-- data are what follows in the stream.
def Expected (s : Upload) : UploadLabel d → Prop
  | .segment g => s.tcp.isClosed = false → g.seq = s.tcp.myAck →
    if g.flags &&& FIN ≠ 0 then d.bytes.length ≤ s.acked
    else 8192 ≤ s.tcp.queue.items.length ∨ g.bytes <+: d.bytes.drop s.acked
  | .poll | .close => True

-- As long as all is sound, the acknowledged bytes are the queued ones, until the FIN.
structure Tracks (d : ClientStream) (s : Upload) : Prop where
  connected : s.tcp.connected
  myAck : s.tcp.myAck = seqMask (d.initialSeq + 1 + s.acked)
  acked : s.acked = s.put.length ∨ s.put = d.bytes ∧ d.bytes.length < s.acked

theorem seqMask_sub_self (a : Nat) : seqMask (a + 2 ^ 32 - a) = 0 := by
  simp [seqMask]

theorem seqMask_add_sub {a n : Nat} (ha : a < 2 ^ 32) (hn : n < 2 ^ 32) :
    seqMask (seqMask (a + n) + 2 ^ 32 - a) = n := by
  simp only [seqMask]
  omega

-- What a segment does: nothing but an acknowledgement of what there was, the step of a FIN, or the
-- step of data.
inductive Turn (s : Upload) (g : StreamSegment d) : Upload → Prop
  | idle (acks : List Nat) : s.Expected (.segment g) → (∀ a ∈ acks, a ∈ s.acks ∨ a = s.acked) →
    Turn s g { s with acks }
  | fin (tcp : TcpSession) : s.tcp.isClosed = false → g.seq = s.tcp.myAck → g.flags &&& FIN ≠ 0 →
    tcp.connected → tcp.myAck = seqMask (g.seq + 1) →
    Turn s g ⟨tcp, s.put, s.acked + 1, s.acks ++ [s.acked + 1]⟩
  | data (tcp : TcpSession) : s.tcp.isClosed = false → g.seq = s.tcp.myAck → ¬ g.flags &&& FIN ≠ 0 →
    s.tcp.queue.items.length < 8192 → tcp.connected → tcp.myAck = seqMask (g.seq + g.length) →
    Turn s g ⟨tcp, s.put ++ g.bytes, s.acked + g.length, s.acks ++ [s.acked + g.length]⟩

variable {tcp : TcpSession}

theorem handle_eq {ack : Option TcpSegment} (n : Nat) {new : List Bytes}
    (h : s.tcp.handleFromTun g.seq g.payload g.flags = (tcp, ack))
    (hn : seqMask (tcp.myAck + 2 ^ 32 - s.tcp.myAck) = n) (hq : tcp.queue.items = s.tcp.queue.items ++ new) :
    s.handle g = ⟨tcp, s.put ++ new.flatten, s.acked + n,
      s.acks ++ if ack.isSome then [s.acked + n] else []⟩ := by
  simp only [handle, h, hn, hq, drop_left]

theorem handle_same {ack : Option TcpSegment}
    (h : s.tcp.handleFromTun g.seq g.payload g.flags = (s.tcp, ack)) (he : s.Expected (.segment g)) :
    Turn s g (s.handle g) := by
  rw [handle_eq 0 h (seqMask_sub_self _) (append_nil _).symm, flatten_nil, append_nil]
  exact .idle _ he (by split <;> simp +contextual)

theorem handle_turn (hc : s.tcp.connected) (hl : s.tcp.myAck < 2 ^ 32) : Turn s g (s.handle g) := by
  cases hx : s.tcp.isClosed
  case true =>
    have ha : s.tcp.handleFromTun g.seq g.payload g.flags = (s.tcp, none) := by simp [TcpSession.handleFromTun, hx]
    exact handle_same ha (by simp [Expected, hx])
  case false =>
    have ha : s.tcp.handleFromTun g.seq g.payload g.flags = s.tcp.accept g.seq g.payload g.flags := by
      simp [TcpSession.handleFromTun, hx, g.noReset, hc]
    unfold TcpSession.accept at ha
    split at ha
    case isTrue hf =>
      split at ha
      case isFalse hs => exact handle_same ha fun _ h => absurd h hs
      case isTrue hs =>
        have hm := seqMask_add_sub (n := 1) hl (by omega)
        rw [handle_eq 1 ha (by rw [hs]; exact hm) (append_nil _).symm, flatten_nil, append_nil]
        exact .fin _ hx hs hf hc rfl
    case isFalse hf =>
      split at ha
      case h_1 hp =>
        refine handle_same ha fun _ _ => ?_
        have hl : g.length = 0 := by simpa [StreamSegment.payload] using hp
        rw [if_neg hf]
        exact .inr (by simp [StreamSegment.bytes, hl])
      case h_2 payload hp =>
        have hb : payload = g.bytes := by
          simp only [StreamSegment.payload] at hp
          obtain ⟨-, hp⟩ := Option.ite_none_left_eq_some.mp hp
          exact (Option.some_inj.mp hp).symm
        subst hb
        split at ha
        case isFalse hs => exact handle_same ha fun _ h => absurd h hs
        case isTrue hs =>
          split at ha
          case h_2 ho =>
            refine handle_same ha fun _ _ => ?_
            rw [if_neg hf]
            exact .inl (Bounded.offer_eq_none.mp ho)
          case h_1 queue ho =>
            obtain ⟨hroom, hq⟩ := Bounded.offer_eq_some ho
            have hlen := g.length_bytes
            have hm := seqMask_add_sub (n := g.length) hl (by have := g.fits; omega)
            rw [handle_eq g.length ha (by rw [hs, hlen]; exact hm) hq, flatten_singleton]
            exact .data _ hx hs hf hroom hc (by rw [hlen])

theorem Tracks.myAck_lt (ht : Tracks d s) : s.tcp.myAck < 2 ^ 32 := by
  rw [ht.myAck]
  exact Nat.mod_lt _ (by omega)

theorem Tracks.covered (ht : Tracks d s) {k : Nat} (hk : k < d.bytes.length) (ha : k < s.acked) :
    k < s.put.length := by
  obtain he | ⟨he, -⟩ := ht.acked
  case inl => omega
  case inr => rwa [he]

theorem Sound.append_iff {put : Bytes} {acked : Nat} (hp : Sound d s) (hput : s.put <+: put) :
    Sound d ⟨tcp, put, acked, s.acks ++ [acked]⟩ ↔
      put <+: d.bytes ∧ ∀ k < d.bytes.length, k < acked → k < put.length := by
  refine ⟨fun h => ⟨h.ordered, h.covered acked (by simp)⟩, fun ⟨ho, hc⟩ => ⟨ho, fun a ha k hk hka => ?_⟩⟩
  obtain ha | ha := mem_append.mp ha
  case inl => exact (hp.covered a ha k hk hka).trans_le hput.length_le
  case inr => exact hc k hk (mem_singleton.mp ha ▸ hka)

theorem sound_fin_iff (ht : Tracks d s) (hp : Sound d s) :
    Sound d ⟨tcp, s.put, s.acked + 1, s.acks ++ [s.acked + 1]⟩ ↔ d.bytes.length ≤ s.acked := by
  rw [hp.append_iff prefix_rfl]
  constructor
  case mp =>
    intro ⟨_, hc⟩
    obtain he | ⟨-, hl⟩ := ht.acked
    case inl =>
      by_contra hn
      have := hc s.acked (by omega) (by omega)
      omega
    case inr => exact hl.le
  case mpr => exact fun hl => ⟨hp.ordered, fun k hk _ => ht.covered hk (by omega)⟩

theorem append_prefix_iff (ht : Tracks d s) (hp : Sound d s) {bytes : Bytes} :
    s.put ++ bytes <+: d.bytes ↔ bytes <+: d.bytes.drop s.acked := by
  obtain he | ⟨he, hl⟩ := ht.acked
  case inl =>
    obtain ⟨rest, hr⟩ := hp.ordered
    rw [← hr, prefix_append_right_inj, he, drop_left]
  case inr =>
    have hn : d.bytes ++ bytes <+: d.bytes ++ [] ↔ bytes <+: [] := prefix_append_right_inj _
    rw [append_nil] at hn
    rwa [he, drop_of_length_le hl.le]

theorem sound_data_iff (ht : Tracks d s) (hp : Sound d s) :
    Sound d ⟨tcp, s.put ++ g.bytes, s.acked + g.length, s.acks ++ [s.acked + g.length]⟩ ↔
      g.bytes <+: d.bytes.drop s.acked := by
  rw [hp.append_iff (prefix_append ..), append_prefix_iff ht hp, and_iff_left]
  intro k hk ha
  rw [length_append, g.length_bytes]
  obtain he | ⟨he, -⟩ := ht.acked
  case inl => omega
  case inr => rw [he]; omega

theorem sound_idle (ht : Tracks d s) (hp : Sound d s) {acks : List Nat}
    (ha : ∀ a ∈ acks, a ∈ s.acks ∨ a = s.acked) : Sound d { s with acks } := by
  refine ⟨hp.ordered, fun a hm k hk hka => ?_⟩
  obtain hm | rfl := ha a hm
  case inl => exact hp.covered a hm k hk hka
  case inr => exact ht.covered hk hka

theorem Turn.sound_iff (ht : Tracks d s) (hp : Sound d s) (h : Turn s g s') :
    Sound d s' ↔ s.Expected (.segment g) := by
  cases h
  case idle acks he ha => exact iff_of_true (sound_idle ht hp ha) he
  case fin tcp hx hs hf _ _ => simp only [sound_fin_iff ht hp, Expected, hx, hs, forall_const, if_pos hf]
  case data tcp hx hs hf hroom _ _ =>
    have hq : ¬ 8192 ≤ s.tcp.queue.items.length := not_le.mpr hroom
    simp only [sound_data_iff ht hp, Expected, hx, hs, forall_const, if_neg hf, hq, false_or]

theorem Turn.tracks (ht : Tracks d s) (hp : Sound d s) (h : Turn s g s') (hp' : Sound d s') : Tracks d s' := by
  have hmask {n : Nat} (hs : g.seq = s.tcp.myAck) : seqMask (g.seq + n) = seqMask (d.initialSeq + 1 + (s.acked + n)) := by
    rw [hs, ht.myAck, seqMask, seqMask, seqMask, Nat.mod_add_mod, Nat.add_assoc _ s.acked]
  cases h
  case idle => exact { ht with }
  case fin tcp hx hs hf hc hm =>
    refine ⟨hc, hm.trans (hmask hs), .inr ?_⟩
    have hl := (sound_fin_iff ht hp).mp hp'
    refine ⟨hp.ordered.eq_of_length_le ?_, Nat.lt_succ_of_le hl⟩
    obtain he | ⟨he, -⟩ := ht.acked
    case inl => omega
    case inr => rw [he]
  case data tcp hx hs hf hroom hc hm =>
    refine ⟨hc, hm.trans (hmask hs), ?_⟩
    obtain he | ⟨he, hl⟩ := ht.acked
    case inl => exact .inl (by rw [length_append, g.length_bytes, he])
    case inr => exact .inr ⟨hp'.ordered.eq_of_length_le (by simp [he]), Nat.lt_add_right _ hl⟩

theorem step_sound_iff (ht : Tracks d s) (hp : Sound d s) (h : s.step l = some s') : Sound d s' ↔ s.Expected l := by
  cases l
  case segment g =>
    cases h
    exact (handle_turn ht.connected ht.myAck_lt).sound_iff ht hp
  case poll =>
    obtain ⟨⟨_, queue⟩, -, rfl⟩ := Option.map_eq_some_iff.mp h
    exact iff_of_true { hp with } trivial
  case close => cases h; exact iff_of_true { hp with } trivial

theorem step_tracks (ht : Tracks d s) (hp : Sound d s) (h : s.step l = some s') (hp' : Sound d s') : Tracks d s' := by
  cases l
  case segment g =>
    cases h
    exact (handle_turn ht.connected ht.myAck_lt).tracks ht hp hp'
  case poll =>
    obtain ⟨⟨_, queue⟩, -, rfl⟩ := Option.map_eq_some_iff.mp h
    exact { ht with }
  case close => cases h; exact { ht with }

theorem always_sound_iff (d : ClientStream) (mySeq : Nat) (ls : List (UploadLabel d)) :
    Lts.Always step (Sound d) (init d mySeq) ls ↔ Lts.Admits step Expected (init d mySeq) ls := by
  refine Lts.always_iff_admits (I := Tracks d) ?_ ?_ ⟨rfl, rfl, .inl rfl⟩ ⟨List.nil_prefix, by simp [init]⟩
  · exact fun s l s' ht hp h hp' => step_tracks ht hp h hp'
  · exact fun s l s' ht hp h => step_sound_iff ht hp h

def lastWords : ClientStream where
  initialSeq := 0
  bytes := [1, 2]

def finWithData : StreamSegment lastWords where
  offset := 0
  length := 2
  flags := 0x19
  fits := by decide
  inside := by decide
  noReset := by decide
  last := fun _ => rfl

-- The first of the bytes is acknowledged and was never queued.
theorem not_always_sound : ¬ Lts.Always step (Sound lastWords) (init lastWords 100000) [.segment finWithData] := by
  intro h
  have hs := h.last rfl
  have ha : 1 ∈ ((init lastWords 100000).handle finWithData).acks := by decide +kernel
  have hp : ((init lastWords 100000).handle finWithData).put = [] := by decide +kernel
  have := hs.covered 1 ha 0 (by decide) (by decide)
  simp [hp] at this

end Upload

end App.TunBridge
