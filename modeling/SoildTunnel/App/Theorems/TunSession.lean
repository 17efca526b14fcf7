import SoildTunnel.App.TunSession

-- What becomes of the bytes that a session has acknowledged when its socket is closed.
namespace App.TunBridge

open Lts List Option

-- Where the upload loop has nothing in its hand, and where the stream's buffer is empty.
def UploadPc.handFree : UploadPc → Bool
  | .write _ | .spill _ | .direct _ | .close _ => false
  | _ => true

def UploadPc.bufferFree : UploadPc → Bool
  | .loop | .poll | .direct _ | .check _ | .shutdown _ | .idleCheck => true
  | _ => false

-- What the TUN reader has queued and `myAck` does not cover yet.
def TunPc.pending : TunPc → Bytes
  | .advance payload => payload
  | _ => []

def TunPc.accepts : TunPc → Bool
  | .offer _ => true
  | _ => false

def TunPc.closing : TunPc → Bool
  | .close _ => true
  | _ => false

def UploadPc.closing : UploadPc → Bool
  | .close _ => true
  | _ => false

def DownloadPc.closing : DownloadPc → Bool
  | .close _ => true
  | .read => false

-- The events that send a thread into `close()`.
def SessionLabel.starts : SessionLabel → Bool
  | .blocked | .idle true | .sendFailed | .endOfStream | .readFailed => true
  | _ => false

namespace Session

variable {s s' : Session} {l : SessionLabel}

def left (s : Session) : Bytes :=
  s.buffer ++ s.hand ++ s.tcp.queue.items.flatten

-- Once the socket is closed, everything that was acknowledged has been written to it.
def Written (s : Session) : Prop :=
  s.socketClosed → s.covered.take s.acked <+: s.written

instance : DecidablePred Written :=
  fun s => inferInstanceAs (Decidable (s.socketClosed → s.covered.take s.acked <+: s.written))

structure Inv (s : Session) : Prop where
  put_eq : s.put = s.written ++ s.left
  put_sublist : s.put <+ s.covered ++ s.tun.pending
  length_covered : (s.covered ++ s.tun.pending).length = s.put.length + s.skipped
  acked_le : s.acked ≤ s.covered.length
  hand_nil : s.upload.handFree → s.hand = []
  buffer_nil : s.upload.bufferFree → s.buffer = []

theorem inv_opened (initialSeq mySeq : Nat) : (opened initialSeq mySeq).Inv where
  put_eq := rfl
  put_sublist := .refl _
  length_covered := rfl
  acked_le := le_rfl
  hand_nil _ := rfl
  buffer_nil _ := rfl

theorem close_fst (s : Session) (c : Close) : (s.close c).1 = { s with
      tcp := { s.tcp with isClosed := s.tcp.isClosed || c = .flag }
      socketClosed := s.socketClosed || c = .socket } := by
  cases c
  case flag =>
    by_cases h : s.tcp.isClosed
    case pos =>
      have : { s.tcp with isClosed := true } = s.tcp := by rw [← h]
      simp [close, h, this]
    case neg => simp [close, h]
  case socket => simp [close]
  case done => simp [close]

theorem take_eq (s : Session) (count : Nat) (otherwise : UploadPc) :
    s.take count otherwise = { s with upload := otherwise } ∧ s.tcp.queue.items = [] ∨
    ∃ data queue, s.tcp.queue.items = data :: queue.items ∧ s.take count otherwise =
      { s with tcp := { s.tcp with queue }, hand := data, upload := .write count } := by
  unfold take
  split
  case h_1 data queue hq => exact .inr ⟨data, queue, Bounded.poll_eq_some hq, rfl⟩
  case h_2 hq => exact .inl ⟨rfl, Bounded.poll_eq_none hq⟩

-- A thread is in `close()`, or has been there.
def Closing (s : Session) : Bool :=
  s.tcp.isClosed || s.socketClosed || s.tun.closing || s.upload.closing || s.download.closing

-- The steps of the upload loop write nothing: the socket takes its bytes on its own.
structure Frame (s s' : Session) : Prop where
  put_eq : s'.put = s.put
  covered_eq : s'.covered = s.covered
  acked_eq : s'.acked = s.acked
  skipped_eq : s'.skipped = s.skipped
  written_eq : s'.written = s.written
  tun_eq : s'.tun = s.tun
  closing : s'.Closing → s.Closing

theorem closing_of (h : s'.Closing) (hc : s'.tcp.isClosed = s.tcp.isClosed) (hs : s'.socketClosed = s.socketClosed)
    (ht : s'.tun.closing → s.tun.closing) (hu : s'.upload.closing → s.upload.closing)
    (hd : s'.download = s.download) : s.Closing := by
  simp only [Closing, hc, hs, hd, Bool.or_eq_true] at h ⊢
  exact h.imp_left (Or.imp (Or.imp_right ht) hu)

theorem frame_take (s : Session) (count : Nat) {otherwise : UploadPc} (ho : otherwise.closing = false) :
    s.Frame (s.take count otherwise) := by
  rcases take_eq s count otherwise with ⟨h, -⟩ | ⟨data, queue, -, h⟩
  case inl => rw [h]; exact ⟨rfl, rfl, rfl, rfl, rfl, rfl, fun h => closing_of h rfl rfl id (by simp [ho]) rfl⟩
  case inr => rw [h]; exact ⟨rfl, rfl, rfl, rfl, rfl, rfl, fun h => closing_of h rfl rfl id nofun rfl⟩

theorem closing_afterShutdown (flushed : Bool) : (afterShutdown flushed).closing = false := by
  cases flushed
  case false => rfl
  case true => rfl

theorem frame_uploadStep (h : s.uploadStep s.upload = some s') : s.Frame s' := by
  generalize hu : s.upload = pc at h
  cases pc
  case poll =>
    simp only [uploadStep, ite_none_left_eq_some, Option.some.injEq] at h
    exact h.2 ▸ frame_take s 0 rfl
  case more count =>
    simp only [uploadStep] at h
    split at h <;> cases h
    case isTrue => exact frame_take s (count + 1) rfl
    case isFalse => exact ⟨rfl, rfl, rfl, rfl, rfl, rfl, fun h => closing_of h rfl rfl id nofun rfl⟩
  case close c =>
    have hc : s.Closing := by simp [Closing, hu, UploadPc.closing]
    cases c <;> cases h <;> rw [close_fst] <;> exact ⟨rfl, rfl, rfl, rfl, rfl, rfl, fun _ => hc⟩
  case loop =>
    cases h
    refine ⟨rfl, rfl, rfl, rfl, rfl, rfl, ?_⟩
    by_cases hc : s.tcp.isClosed
    case pos => simp [Closing, hc]
    case neg => exact fun h => closing_of h rfl rfl id (by simp [hc, UploadPc.closing]) rfl
  case shutdown flushed =>
    cases h
    exact ⟨rfl, rfl, rfl, rfl, rfl, rfl, fun h => closing_of h rfl rfl id (by simp [closing_afterShutdown]) rfl⟩
  case check flushed =>
    cases h
    refine ⟨rfl, rfl, rfl, rfl, rfl, rfl, fun h => closing_of h rfl rfl id ?_ rfl⟩
    dsimp only
    split
    case isTrue => nofun
    case isFalse => simp [closing_afterShutdown]
  all_goals
    simp only [uploadStep] at h
    repeat' split at h
    all_goals cases h <;> exact ⟨rfl, rfl, rfl, rfl, rfl, rfl, fun h => closing_of h rfl rfl id nofun rfl⟩

theorem direct_of_writesDirectly (h : s.writesDirectly) : ∃ count, s.upload = .direct count := by
  unfold writesDirectly at h
  split at h
  case h_1 count hu => exact ⟨count, hu⟩
  case h_2 => cases h

theorem send_eq {n : Nat} (h : s.send n = some s') :
    s' = { s with written := s.written ++ s.buffer.take n, buffer := s.buffer.drop n } ∨
      s.upload.bufferFree ∧ s' = { s with written := s.written ++ s.hand.take n, hand := s.hand.drop n } := by
  unfold send at h
  repeat' split at h
  all_goals cases h
  case isFalse.isTrue.refl => exact .inl rfl
  case isFalse.isFalse.isTrue.refl hd =>
    obtain ⟨count, hu⟩ := direct_of_writesDirectly hd
    exact .inr ⟨by rw [hu]; rfl, rfl⟩

def Carries (s s' : Session) : Prop :=
  s'.left = s.left ∧ (s'.upload.handFree → s'.hand = []) ∧ (s'.upload.bufferFree → s'.buffer = [])

theorem carries_take {count : Nat} {otherwise : UploadPc} (hh : s.hand = [])
    (hb : otherwise.bufferFree → s.buffer = []) : s.Carries (s.take count otherwise) := by
  rcases take_eq s count otherwise with ⟨h, -⟩ | ⟨data, queue, hq, h⟩
  case inl => rw [h]; exact ⟨rfl, fun _ => hh, hb⟩
  case inr => rw [h]; exact ⟨by simp [left, hh, hq], nofun, nofun⟩

theorem carries_copy (s : Session) (count : Nat) : s.Carries (s.copy count) :=
  ⟨by simp [left, copy], fun _ => rfl, nofun⟩

theorem carries_uploadStep (hi : s.Inv) (h : s.uploadStep s.upload = some s') : s.Carries s' := by
  have hh := hi.hand_nil
  have hb := hi.buffer_nil
  generalize hu : s.upload = pc at h hh hb
  cases pc
  case loop | check | shutdown => cases h; exact ⟨rfl, fun _ => hh rfl, fun _ => hb rfl⟩
  case poll =>
    simp only [uploadStep, ite_none_left_eq_some, Option.some.injEq] at h
    exact h.2 ▸ carries_take (hh rfl) fun _ => hb rfl
  case write count =>
    simp only [uploadStep] at h
    split at h <;> cases h
    case isTrue => exact carries_copy s count
    case isFalse => exact ⟨rfl, nofun, nofun⟩
  case spill count =>
    simp only [uploadStep, ne_eq, ite_not, ite_none_right_eq_some, Option.some.injEq] at h
    obtain ⟨he, h⟩ := h
    split at h <;> cases h
    case isTrue => exact carries_copy s count
    case isFalse => exact ⟨rfl, nofun, fun _ => he⟩
  case direct count =>
    simp only [uploadStep, ite_none_right_eq_some, Option.some.injEq] at h
    obtain ⟨he, rfl⟩ := h
    exact ⟨rfl, fun _ => he, nofun⟩
  case more count =>
    simp only [uploadStep] at h
    split at h <;> cases h
    case isTrue => exact carries_take (hh rfl) nofun
    case isFalse => exact ⟨rfl, fun _ => hh rfl, nofun⟩
  case flush =>
    simp only [uploadStep, ite_none_right_eq_some, Option.some.injEq] at h
    obtain ⟨he, rfl⟩ := h
    exact ⟨rfl, fun _ => hh rfl, fun _ => he⟩
  case idleCheck => cases h
  case close c => cases c <;> cases h <;> rw [close_fst] <;> exact ⟨rfl, nofun, nofun⟩

theorem inv_uploadStep (hi : s.Inv) (h : s.uploadStep s.upload = some s') : s'.Inv := by
  have hf := frame_uploadStep h
  obtain ⟨hl, hh, hb⟩ := carries_uploadStep hi h
  constructor
  case put_eq => rw [hf.put_eq, hf.written_eq, hl, hi.put_eq]
  case put_sublist => rw [hf.covered_eq, hf.tun_eq, hf.put_eq]; exact hi.put_sublist
  case length_covered => rw [hf.covered_eq, hf.tun_eq, hf.put_eq, hf.skipped_eq, hi.length_covered]
  case acked_le => rw [hf.acked_eq, hf.covered_eq]; exact hi.acked_le
  case hand_nil => exact hh
  case buffer_nil => exact hb

theorem inv_tunStep (hi : s.Inv) (h : s.tunStep s.tun = some s') : s'.Inv := by
  have hp := hi.put_sublist
  have hl := hi.length_covered
  generalize ht : s.tun = pc at h hp hl
  cases pc
  case idle => cases h
  case offer payload =>
    simp only [TunPc.pending, append_nil] at hp hl
    simp only [tunStep] at h
    split at h <;> cases h
    case h_1 queue hq =>
      obtain ⟨-, hq⟩ := Bounded.offer_eq_some hq
      exact { hi with
        put_eq := by simp [left, hq, hi.put_eq]
        put_sublist := hp.append (.refl payload)
        length_covered := by simp only [TunPc.pending, length_append]; omega }
    case h_2 => exact { hi with put_sublist := (append_nil _).symm ▸ hp, length_covered := (append_nil _).symm ▸ hl }
  case advance payload =>
    cases h
    exact { hi with
      put_sublist := by simpa [TunPc.pending] using hp
      length_covered := by simpa [TunPc.pending] using hl
      acked_le := hi.acked_le.trans (by simp) }
  case sendAck | sendAckFin =>
    cases h
    exact { hi with
      put_sublist := hp
      length_covered := hl
      acked_le := max_le hi.acked_le le_rfl }
  case advanceFin byte =>
    cases h
    simp only [TunPc.pending, append_nil] at hp hl
    exact { hi with
      put_sublist := by simpa [TunPc.pending] using hp.trans (sublist_append_left ..)
      length_covered := by simp only [TunPc.pending, append_nil, length_append]; omega
      acked_le := hi.acked_le.trans (by simp) }
  case clientClosed => cases h; exact { hi with put_sublist := hp, length_covered := hl }
  case close c =>
    cases c <;> cases h
    case done => exact { hi with put_sublist := hp, length_covered := hl }
    all_goals rw [close_fst]; exact { hi with put_sublist := hp, length_covered := hl }

theorem inv_downloadStep (hi : s.Inv) (h : s.downloadStep s.download = some s') : s'.Inv := by
  generalize s.download = pc at h
  unfold downloadStep at h
  split at h <;> cases h
  rw [close_fst]
  exact { hi with }

theorem inv_send {n : Nat} (hi : s.Inv) (h : s.send n = some s') : s'.Inv := by
  obtain rfl | ⟨hb, rfl⟩ := send_eq h
  case inl =>
    exact { hi with
      put_eq := by
        simp only [hi.put_eq, left, append_assoc]
        rw [← append_assoc (s.buffer.take n), take_append_drop]
      buffer_nil := fun hb => by simp [hi.buffer_nil hb] }
  case inr =>
    have hb := hi.buffer_nil hb
    exact { hi with
      put_eq := by
        simp only [hi.put_eq, left, hb, nil_append, append_assoc]
        rw [← append_assoc (s.hand.take n), take_append_drop]
      hand_nil := fun hh => by simp [hi.hand_nil hh] }

theorem pending_receive (s : Session) (g : ClientSegment) : (s.receive g).pending = [] := by
  unfold receive
  repeat' split
  all_goals rfl

theorem inv_acknowledge (hi : s.Inv) : s.acknowledge.Inv :=
  { hi with acked_le := max_le hi.acked_le le_rfl }

theorem inv_step (hi : s.Inv) (h : s.step l = some s') : s'.Inv := by
  cases l
  case tun => exact inv_tunStep hi h
  case upload => exact inv_uploadStep hi h
  case download => exact inv_downloadStep hi h
  case send => exact inv_send hi h
  all_goals
    simp only [step, ite_none_right_eq_some, Option.some.injEq] at h
    obtain ⟨hpc, rfl⟩ := h
  case receive g =>
    have hp := hi.put_sublist
    have hl := hi.length_covered
    rw [hpc] at hp hl
    exact { hi with
      put_sublist := (pending_receive s g).symm ▸ hp
      length_covered := (pending_receive s g).symm ▸ hl }
  case blocked =>
    have hp := hi.put_sublist
    have hl := hi.length_covered
    rw [hpc] at hp hl
    exact { hi with put_sublist := hp, length_covered := hl }
  case pollTimeout =>
    exact { hi with
      hand_nil := fun _ => hi.hand_nil (by simp [hpc, UploadPc.handFree])
      buffer_nil := fun _ => hi.buffer_nil (by simp [hpc, UploadPc.bufferFree]) }
  case idle expired =>
    exact { hi with
      hand_nil := fun _ => hi.hand_nil (by simp [hpc, UploadPc.handFree])
      buffer_nil := fun _ => hi.buffer_nil (by simp [hpc, UploadPc.bufferFree]) }
  case sendFailed => exact { hi with hand_nil := nofun, buffer_nil := nofun }
  case read => exact inv_acknowledge hi
  case endOfStream => exact { inv_acknowledge hi with }
  case readFailed => exact { hi with }

-- Nothing is queued, and the upload loop is between two batches.
def Rests (s : Session) : Prop :=
  s.tcp.queue.items = [] ∧ s.tun.accepts = false ∧ s.upload.handFree ∧ s.upload.bufferFree

-- The session begins to be closed only while it rests, and from then on no more payload comes in
-- order; and the client's FIN carries no data.
def Orderly (s : Session) : SessionLabel → Prop
  | .receive g => ¬ s.tcp.isClosed → g.seq = s.tcp.myAck → g.flags &&& FIN ≠ 0 ∨ s.Closing → g.payload = none
  | l => l.starts → s.Rests

instance (s : Session) : DecidablePred s.Orderly
  | .receive g => inferInstanceAs (Decidable (¬ s.tcp.isClosed → g.seq = s.tcp.myAck → _ → g.payload = none))
  | .blocked | .tun | .upload | .pollTimeout | .idle _ | .send _ | .sendFailed | .read | .endOfStream | .readFailed
  | .download => inferInstanceAs (Decidable (_ → _ ∧ _))

structure Ordered (s : Session) : Prop where
  inv : s.Inv
  skipped_eq : s.skipped = 0
  byte_nil : ∀ byte, s.tun = .advanceFin byte → byte = []
  closing : s.Closing → s.left = [] ∧ s.tun.accepts = false

theorem ordered_opened (initialSeq mySeq : Nat) : (opened initialSeq mySeq).Ordered where
  inv := inv_opened initialSeq mySeq
  skipped_eq := rfl
  byte_nil := nofun
  closing := nofun

theorem left_nil (hi : s.Inv) (hr : s.Rests) : s.left = [] := by
  obtain ⟨hq, -, hh, hb⟩ := hr
  simp [left, hq, hi.hand_nil hh, hi.buffer_nil hb]

theorem ordered_tunStep (ho : s.Ordered) (h : s.tunStep s.tun = some s') : s'.Ordered := by
  have hi := inv_tunStep ho.inv h
  have hb := ho.byte_nil
  have hc := ho.closing
  generalize ht : s.tun = pc at h hb hc
  cases pc
  case idle => cases h
  case offer payload =>
    simp only [tunStep] at h
    split at h <;> cases h
    all_goals
      refine { ho with inv := hi, byte_nil := nofun, closing := fun h => ?_ }
      cases (hc (closing_of h rfl rfl nofun id rfl)).2
  case advanceFin byte =>
    cases h
    obtain rfl := hb byte rfl
    exact { ho with
      inv := hi
      byte_nil := nofun
      closing := fun h => ⟨(hc (closing_of h rfl rfl nofun id rfl)).1, rfl⟩ }
  case close c =>
    obtain ⟨hl, -⟩ := hc (by simp [Closing, ht, TunPc.closing])
    cases c <;> cases h
    case done => exact { ho with inv := hi, byte_nil := nofun, closing := fun _ => ⟨hl, rfl⟩ }
    all_goals
      rw [close_fst] at hi ⊢
      exact { ho with inv := hi, byte_nil := nofun, closing := fun _ => ⟨hl, rfl⟩ }
  all_goals
    cases h
    exact { ho with
      inv := hi
      byte_nil := nofun
      closing := fun h => ⟨(hc (closing_of h rfl rfl nofun id rfl)).1, rfl⟩ }

theorem ordered_uploadStep (ho : s.Ordered) (h : s.uploadStep s.upload = some s') : s'.Ordered := by
  have hf := frame_uploadStep h
  obtain ⟨hl, -, -⟩ := carries_uploadStep ho.inv h
  constructor
  case inv => exact inv_uploadStep ho.inv h
  case skipped_eq => exact hf.skipped_eq.trans ho.skipped_eq
  case byte_nil => exact hf.tun_eq ▸ ho.byte_nil
  case closing => exact fun hc => by rw [hl, hf.tun_eq]; exact ho.closing (hf.closing hc)

theorem ordered_downloadStep (ho : s.Ordered) (h : s.downloadStep s.download = some s') : s'.Ordered := by
  have hi := inv_downloadStep ho.inv h
  generalize hd : s.download = pc at h
  unfold downloadStep at h
  split at h <;> cases h
  case h_3 c _ =>
    have hc := ho.closing (by simp [Closing, hd, DownloadPc.closing])
    rw [close_fst] at hi ⊢
    exact { ho with inv := hi, closing := fun _ => hc }

theorem ordered_send {n : Nat} (ho : s.Ordered) (h : s.send n = some s') : s'.Ordered := by
  have hi := inv_send ho.inv h
  obtain rfl | ⟨-, rfl⟩ := send_eq h
  all_goals
    refine { ho with inv := hi, closing := fun hc => ?_ }
    obtain ⟨hl, ht⟩ := ho.closing hc
    simp only [left, append_eq_nil_iff] at hl ⊢
    simp [hl, ht]

-- In an orderly run a FIN has no first byte, and nothing is queued while the session is closed.
theorem receive_orderly {g : ClientSegment} (hl : s.Orderly (.receive g)) :
    ¬ (s.receive g).closing ∧ (∀ byte, s.receive g = .advanceFin byte → byte = []) ∧
      (s.Closing → (s.receive g).accepts = false) := by
  unfold receive
  split
  case isTrue => exact ⟨nofun, nofun, fun _ => rfl⟩
  case isFalse hc =>
    split
    case isTrue hf =>
      split
      case isTrue hs =>
        rw [hl hc hs (.inl hf)]
        exact ⟨nofun, fun _ hb => by cases hb; rfl, fun _ => rfl⟩
      case isFalse => exact ⟨nofun, nofun, fun _ => rfl⟩
    case isFalse =>
      split
      case h_1 => exact ⟨nofun, nofun, fun _ => rfl⟩
      case h_2 hp =>
        split
        case isTrue hs =>
          refine ⟨nofun, nofun, fun hx => ?_⟩
          cases (hl hc hs (.inr hx)).symm.trans hp
        case isFalse => exact ⟨nofun, nofun, fun _ => rfl⟩

theorem ordered_step (ho : s.Ordered) (hl : s.Orderly l) (h : s.step l = some s') : s'.Ordered := by
  have hi := inv_step ho.inv h
  have hr : s.Rests → s.left = [] := left_nil ho.inv
  cases l
  case tun => exact ordered_tunStep ho h
  case upload => exact ordered_uploadStep ho h
  case download => exact ordered_downloadStep ho h
  case send => exact ordered_send ho h
  all_goals
    simp only [step, ite_none_right_eq_some, Option.some.injEq] at h
    obtain ⟨hpc, rfl⟩ := h
  case receive g =>
    obtain ⟨hn, hb, ha⟩ := receive_orderly hl
    refine { ho with inv := hi, byte_nil := hb, closing := fun h => ?_ }
    have hc : s.Closing := closing_of h rfl rfl (fun h => absurd h hn) id rfl
    exact ⟨(ho.closing hc).1, ha hc⟩
  case pollTimeout => exact { ho with inv := hi, closing := fun h => ho.closing (closing_of h rfl rfl id nofun rfl) }
  case read => exact { ho with inv := hi }
  case blocked => exact { ho with inv := hi, byte_nil := nofun, closing := fun _ => ⟨hr (hl rfl), rfl⟩ }
  case idle expired =>
    cases expired
    case false => exact { ho with inv := hi, closing := fun h => ho.closing (closing_of h rfl rfl id nofun rfl) }
    case true => exact { ho with inv := hi, closing := fun _ => ⟨hr (hl rfl), (hl rfl).2.1⟩ }
  case sendFailed | endOfStream | readFailed =>
    exact { ho with inv := hi, closing := fun _ => ⟨hr (hl rfl), (hl rfl).2.1⟩ }

theorem written_of_ordered (ho : s.Ordered) : s.Written := by
  intro hc
  obtain ⟨hl, -⟩ := ho.closing (by simp [Closing, hc])
  have hp : s.put = s.covered ++ s.tun.pending := ho.inv.put_sublist.eq_of_length
    (by rw [ho.inv.length_covered, ho.skipped_eq, Nat.add_zero])
  have hw : s.written = s.covered ++ s.tun.pending := by rw [← hp, ho.inv.put_eq, hl, append_nil]
  exact hw ▸ ( take_prefix ..).trans (prefix_append ..)

-- Then what has been acknowledged has been written when the socket is closed.
theorem always_written {initialSeq mySeq : Nat} {run : List SessionLabel}
    (h : Admits step Orderly (opened initialSeq mySeq) run) :
    Always step Written (opened initialSeq mySeq) run :=
  always_of_admits (I := Ordered) (fun _ _ _ => ordered_step) (fun _ => written_of_ordered) (ordered_opened ..) h

-- The client asks and ends its direction, and the answer ends when the question has been passed on.
theorem always_written_answered : let run : List SessionLabel :=
      [.receive ⟨1000, some [71, 69, 84], 0x18, by decide⟩, .tun, .tun, .tun, .upload, .upload, .upload, .upload, .send 3,
        .upload, .receive ⟨1003, none, 0x11, by decide⟩, .tun, .tun, .tun, .upload, .upload, .upload, .read, .endOfStream,
        .download, .download]
    (exec step (opened 999 500000) run).map (·.socketClosed) = some true ∧
      Always step Written (opened 999 500000) run :=
  ⟨by decide +kernel, always_written (by decide +kernel)⟩

-- The server answers and ends its direction while the last payload is still in the queue.
theorem not_always_written : ¬ Always step Written (opened 999 500000)
    [.receive ⟨1000, some [71, 69, 84], 0x18, by decide⟩, .tun, .tun, .tun, .endOfStream, .download, .download] :=
  not_always (by decide +kernel)

-- What is queued is written, or on its way, in its order. Of what is acknowledged only the bytes that
-- came first in a segment with a FIN were not queued.
theorem always_carried (initialSeq mySeq : Nat) (run : List SessionLabel) :
    Always step (fun s => s.put = s.written ++ s.left ∧ s.acked ≤ s.put.length + s.skipped)
      (opened initialSeq mySeq) run := by
  refine always_iff.mpr fun past _ s _ hx => ?_
  have h := exec_invariant (fun _ _ _ hi hs => inv_step hi hs) (inv_opened initialSeq mySeq) hx
  have hc := h.length_covered
  have ha := h.acked_le
  rw [length_append] at hc
  exact ⟨h.put_eq, by omega⟩

end Session

end App.TunBridge
