import SoildTunnel.App.TunDns
import SoildTunnel.App.TunPacket
import SoildTunnel.Lib.OnesComplement

-- What a receiver finds in the packets of the bridge.
namespace App.TunBridge

open OnesComplement List Nat
open Engine (Ipv6Addr)

def twoBytes (n : Nat) : Bytes := [(n >>> 8).toUInt8, (n &&& 0xff).toUInt8]

def fourBytes (n : Nat) : Bytes := twoBytes (n / 0x10000) ++ twoBytes (n % 0x10000)

-- An IPv4 packet without options: its lengths, and both checksums.
structure Ipv4Right (p : Bytes) (protocol : UInt8) (segment : Bytes) : Prop where
  version : p[0]? = some 0x45
  total : getShort p 2 = some p.length
  protocol_eq : p[9]? = some protocol
  segment_eq : p.drop 20 = segment
  header : Verifies 0xffff (words (p.take 20))
  transport : Verifies 0xffff (words ((p.drop 12).take 8 ++ [0, protocol] ++ twoBytes segment.length ++ segment))

structure Ipv6Right (p : Bytes) (nextHeader : UInt8) (segment : Bytes) : Prop where
  version : p[0]? = some 0x60
  length : getShort p 4 = some segment.length
  nextHeader_eq : p[6]? = some nextHeader
  segment_eq : p.drop 40 = segment
  transport :
    Verifies 0xffff (words ((p.drop 8).take 32 ++ fourBytes segment.length ++ [0, 0, 0, nextHeader] ++ segment))

-- The data offset counts the options, and the payload is behind them.
structure TcpRight (segment options payload : Bytes) : Prop where
  offset : segment[12]?.map (fun b => 4 * (b.toNat / 16)) = some (20 + options.length)
  options_eq : (segment.take (20 + options.length)).drop 20 = options
  payload_eq : segment.drop (20 + options.length) = payload

structure UdpRight (segment payload : Bytes) : Prop where
  length : getShort segment 4 = some segment.length
  payload_eq : segment.drop 8 = payload

def mssOption (mss : Nat) (flags : UInt32) : Bytes :=
  if isSynAck flags then [2, 4] ++ twoBytes mss else []

def shortBytes (v : UInt32) : Bytes := [(v >>> 8).toUInt8, (v &&& 0xff).toUInt8]

def intBytes (v : UInt32) : Bytes :=
  [(v >>> 24).toUInt8, (v >>> 16).toUInt8, (v >>> 8).toUInt8, (v &&& 0xff).toUInt8]

def longBytes (v : UInt64) : Bytes :=
  [(v >>> 24).toUInt8, (v >>> 16).toUInt8, (v >>> 8).toUInt8, (v &&& 0xff).toUInt8]

def ipHeader4 (total : Nat) (protocol : UInt8) (srcIp dstIp : UInt32) (ck : Nat) : Bytes :=
  [0x45, 0] ++ twoBytes total ++ [0, 0, 0, 0, 64, protocol] ++ twoBytes ck ++ intBytes srcIp ++ intBytes dstIp

def ipHeader6 (len : Nat) (nextHeader : UInt8) (srcIp dstIp : Ipv6Addr) : Bytes :=
  [0x60, 0, 0, 0] ++ twoBytes len ++ [nextHeader, 64] ++ (srcIp.toList ++ dstIp.toList)

def udpHeader (srcPort dstPort : UInt32) (len ck : Nat) : Bytes :=
  shortBytes srcPort ++ shortBytes dstPort ++ twoBytes len ++ twoBytes ck

def tcpHeader (srcPort dstPort : UInt32) (seq ack : UInt64) (flags : UInt32) (ck : Nat) : Bytes :=
  shortBytes srcPort ++ shortBytes dstPort ++ longBytes seq ++ longBytes ack ++
    [((5 + optLen flags / 4) <<< 4).toUInt8, flags.toUInt8, 0xff, 0xff] ++ twoBytes ck ++ [0, 0]

section Layout

theorem replicate_split (k n : Nat) :
    List.replicate (k + n) (0 : UInt8) = List.replicate k 0 ++ List.replicate n 0 := by
  rw [replicate_append_replicate]

theorem arraycopy_zeros {a src r : Bytes} {o : Nat} (ho : o = a.length) :
    arraycopy src (a ++ (List.replicate src.length 0 ++ r)) o = a ++ (src ++ r) := by
  subst ho
  rw [arraycopy, take_left, ← append_assoc a, drop_left' (by simp), append_assoc]

theorem arraycopy_end {a src : Bytes} {o : Nat} (ho : o = a.length) :
    arraycopy src (a ++ List.replicate src.length 0) o = a ++ src := by
  have h : arraycopy src (a ++ (List.replicate src.length 0 ++ [])) o = a ++ (src ++ []) := arraycopy_zeros ho
  rwa [append_nil, append_nil] at h

theorem write_header4 (total k : Nat) (protocol : UInt8) (srcIp dstIp : UInt32) :
    setInt (setInt (((setLength ((List.replicate (20 + k) 0).set 0 0x45) 2 total).set 8 64).set 9 protocol) 12 srcIp) 16
        dstIp =
      ipHeader4 total protocol srcIp dstIp 0 ++ List.replicate k 0 := by
  rw [replicate_split]
  rfl

theorem calculateChecksum_header4 (total : Nat) (protocol : UInt8) (srcIp dstIp : UInt32) (r : Bytes) :
    calculateChecksum (ipHeader4 total protocol srcIp dstIp 0 ++ r) =
      foldChecksum (sumBytes (ipHeader4 total protocol srcIp dstIp 0) 0) := rfl

theorem write_header6 (len k : Nat) (nextHeader : UInt8) (srcIp dstIp : Ipv6Addr) :
    arraycopy dstIp.toList (arraycopy srcIp.toList
        (((setLength ((List.replicate (40 + k) 0).set 0 0x60) 4 len).set 6 nextHeader).set 7 64) 8) 24 =
      ipHeader6 len nextHeader srcIp dstIp ++ List.replicate k 0 := by
  have hz : ((setLength ((List.replicate (40 + k) 0).set 0 0x60) 4 len).set 6 nextHeader).set 7 64 =
      ([0x60, 0, 0, 0] ++ twoBytes len ++ [nextHeader, 64]) ++
        (List.replicate srcIp.toList.length 0 ++ (List.replicate dstIp.toList.length 0 ++ List.replicate k 0)) := by
    rw [replicate_split, Vector.length_toList, Vector.length_toList]
    rfl
  rw [hz, arraycopy_zeros (by simp [twoBytes]), ← append_assoc, arraycopy_zeros (by simp [twoBytes])]
  simp [ipHeader6]

theorem length_ipHeader6 (len : Nat) (nextHeader : UInt8) (srcIp dstIp : Ipv6Addr) :
    (ipHeader6 len nextHeader srcIp dstIp).length = 40 := by
  simp [ipHeader6, twoBytes]

-- The headers of the transport, in the place of zeros behind the header `h`.
section Behind

variable {h : Bytes} {k : Nat} (hk : h.length = k)

include hk

theorem setShort_behind (r : Bytes) (i : Nat) (v : UInt32) : setShort (h ++ r) (k + i) v = h ++ setShort r i v := by
  simp [setShort, ← hk, set_append_right, add_assoc]

theorem setLong_behind (r : Bytes) (i : Nat) (v : UInt64) : setLong (h ++ r) (k + i) v = h ++ setLong r i v := by
  simp [setLong, ← hk, set_append_right, add_assoc]

theorem setLength_behind (r : Bytes) (i n : Nat) : setLength (h ++ r) (k + i) n = h ++ setLength r i n := by
  simp [setLength, ← hk, set_append_right, add_assoc]

theorem set_behind (r : Bytes) (i : Nat) (b : UInt8) : (h ++ r).set (k + i) b = h ++ r.set i b := by
  simp [← hk, set_append_right]

theorem write_tcp (srcPort dstPort : UInt32) (seq ack : UInt64) (flags : UInt32) (r : Bytes) :
    ((((setLong (setLong (setShort (setShort (h ++ (List.replicate 20 0 ++ r)) (k + 0) srcPort) (k + 2) dstPort) (k + 4)
        seq) (k + 8) ack).set (k + 12) ((5 + optLen flags / 4) <<< 4).toUInt8).set (k + 13) flags.toUInt8).set (k + 14)
        0xff).set (k + 15) 0xff =
      h ++ (tcpHeader srcPort dstPort seq ack flags 0 ++ r) := by
  rw [setShort_behind hk, setShort_behind hk, setLong_behind hk, setLong_behind hk, set_behind hk, set_behind hk,
    set_behind hk, set_behind hk]
  have hp : setShort (setShort (List.replicate 20 0 ++ r) 0 srcPort) 2 dstPort =
      shortBytes srcPort ++ shortBytes dstPort ++ List.replicate 16 0 ++ r := rfl
  rw [hp]
  simp [setLong, shortBytes, longBytes, tcpHeader, List.replicate, twoBytes]

theorem write_udp (srcPort dstPort : UInt32) (len : Nat) (r : Bytes) :
    setLength (setShort (setShort (h ++ (List.replicate 8 0 ++ r)) (k + 0) srcPort) (k + 2) dstPort) (k + 4) len =
      h ++ (udpHeader srcPort dstPort len 0 ++ r) := by
  rw [setShort_behind hk, setShort_behind hk, setLength_behind hk]
  rfl

end Behind

theorem write_mss (mss : Nat) (flags : UInt32) {a : Bytes} (r : Bytes) {o : Nat} (ho : o = a.length) :
    setMss (a ++ (List.replicate (optLen flags) 0 ++ r)) o flags mss = a ++ (mssOption mss flags ++ r) := by
  subst ho
  unfold setMss optLen mssOption
  split
  case isTrue => simp [setLength, set_append_right, add_assoc, twoBytes, List.replicate]
  case isFalse => rfl

theorem length_mssOption (mss : Nat) (flags : UInt32) : (mssOption mss flags).length = optLen flags := by
  unfold mssOption optLen
  split <;> rfl

end Layout

section Built

variable (mtu : Nat) (srcPort dstPort : UInt32) (seq ack : UInt64) (flags : UInt32)

def ipChecksum4 (total : Nat) (protocol : UInt8) (srcIp dstIp : UInt32) : Nat :=
  foldChecksum (sumBytes (ipHeader4 total protocol srcIp dstIp 0) 0)

theorem setLength_header4 (total : Nat) (protocol : UInt8) (srcIp dstIp : UInt32) (ck : Nat) (r : Bytes) :
    setLength (ipHeader4 total protocol srcIp dstIp 0 ++ r) 10 ck = ipHeader4 total protocol srcIp dstIp ck ++ r := rfl

theorem buildUdp4_eq (srcIp dstIp : UInt32) (data : Bytes) : buildUdp4 srcIp dstIp srcPort dstPort data =
      ipHeader4 (20 + (8 + data.length)) 17 srcIp dstIp (ipChecksum4 (20 + (8 + data.length)) 17 srcIp dstIp) ++
        (udpHeader srcPort dstPort (8 + data.length) (nonZero (calculateTransportChecksum4 srcIp dstIp
          (udpHeader srcPort dstPort (8 + data.length) 0 ++ data) 17)) ++ data) := by
  unfold buildUdp4
  dsimp only
  rw [write_header4, replicate_split, calculateChecksum_header4, ← ipChecksum4, setLength_header4]
  generalize hh : ipHeader4 (20 + (8 + data.length)) 17 srcIp dstIp (ipChecksum4 (20 + (8 + data.length)) 17 srcIp dstIp) = h
  have hk : h.length = 20 := by rw [← hh]; rfl
  have hw := write_udp hk srcPort dstPort (8 + data.length) (List.replicate data.length 0)
  simp only [Nat.reduceAdd] at hw
  rw [hw, ← append_assoc, arraycopy_end (by simp [hk, udpHeader, shortBytes, twoBytes]), append_assoc,
    drop_left' hk]
  exact setLength_behind hk _ 6 _

theorem buildUdp6_eq (srcIp dstIp : Ipv6Addr) (data : Bytes) : buildUdp6 srcIp dstIp srcPort dstPort data =
      ipHeader6 (8 + data.length) 17 srcIp dstIp ++
        (udpHeader srcPort dstPort (8 + data.length) (nonZero (calculateTransportChecksum6 srcIp dstIp
          (udpHeader srcPort dstPort (8 + data.length) 0 ++ data) 17)) ++ data) := by
  unfold buildUdp6
  dsimp only
  rw [write_header6, replicate_split]
  have hk := length_ipHeader6 (8 + data.length) 17 srcIp dstIp
  generalize ipHeader6 (8 + data.length) 17 srcIp dstIp = h at hk ⊢
  have hw := write_udp hk srcPort dstPort (8 + data.length) (List.replicate data.length 0)
  simp only [Nat.reduceAdd] at hw
  rw [hw, ← append_assoc, arraycopy_end (by simp [hk, udpHeader, shortBytes, twoBytes]), append_assoc,
    drop_left' hk]
  exact setLength_behind hk _ 6 _

def tcpSegment (mss : Nat) (data : Bytes) (ck : Nat) : Bytes :=
  tcpHeader srcPort dstPort seq ack flags ck ++ (mssOption mss flags ++ data)

theorem buildTcp4_eq (srcIp dstIp : UInt32) (data : Option Bytes) :
    buildTcp4 mtu srcIp dstIp srcPort dstPort data seq ack flags =
      ipHeader4 (40 + optLen flags + (data.getD []).length) 6 srcIp dstIp
          (ipChecksum4 (40 + optLen flags + (data.getD []).length) 6 srcIp dstIp) ++
        tcpSegment srcPort dstPort seq ack flags (max (mtu - 40) 536) (data.getD [])
          (nonZero (calculateTransportChecksum4 srcIp dstIp
            (tcpSegment srcPort dstPort seq ack flags (max (mtu - 40) 536) (data.getD []) 0) 6)) := by
  unfold buildTcp4
  dsimp only
  generalize data.getD [] = data
  generalize ht : 40 + optLen flags + data.length = total
  rw [show List.replicate total 0 = List.replicate (20 + (20 + (optLen flags + data.length))) (0 : UInt8) by rw [← ht]; congr 1; omega,
    write_header4, replicate_split, replicate_split, calculateChecksum_header4, ← ipChecksum4, setLength_header4]
  generalize hh : ipHeader4 total 6 srcIp dstIp (ipChecksum4 total 6 srcIp dstIp) = h
  have hk : h.length = 20 := by rw [← hh]; rfl
  have hw := write_tcp hk srcPort dstPort seq ack flags (List.replicate (optLen flags) 0 ++ List.replicate data.length 0)
  simp only [Nat.reduceAdd] at hw
  have hl (ck : Nat) : (tcpHeader srcPort dstPort seq ack flags ck).length = 20 := rfl
  rw [hw, ← append_assoc, write_mss _ _ _ (by simp [hk, hl]), ← append_assoc,
    arraycopy_end (by simp only [length_append, hk, hl, length_mssOption]), append_assoc, append_assoc,
    drop_left' hk]
  exact setLength_behind hk _ 16 _

theorem buildTcp6_eq (srcIp dstIp : Ipv6Addr) (data : Option Bytes) :
    buildTcp6 mtu srcIp dstIp srcPort dstPort data seq ack flags =
      ipHeader6 (20 + optLen flags + (data.getD []).length) 6 srcIp dstIp ++
        tcpSegment srcPort dstPort seq ack flags (max (mtu - 60) 536) (data.getD [])
          (nonZero (calculateTransportChecksum6 srcIp dstIp
            (tcpSegment srcPort dstPort seq ack flags (max (mtu - 60) 536) (data.getD []) 0) 6)) := by
  unfold buildTcp6
  dsimp only
  generalize data.getD [] = data
  rw [write_header6, add_assoc 20, replicate_split, replicate_split]
  have hk := length_ipHeader6 (20 + (optLen flags + data.length)) 6 srcIp dstIp
  generalize ipHeader6 (20 + (optLen flags + data.length)) 6 srcIp dstIp = h at hk ⊢
  have hw := write_tcp hk srcPort dstPort seq ack flags (List.replicate (optLen flags) 0 ++ List.replicate data.length 0)
  simp only [Nat.reduceAdd] at hw
  have hl (ck : Nat) : (tcpHeader srcPort dstPort seq ack flags ck).length = 20 := rfl
  rw [hw, ← append_assoc, write_mss _ _ _ (by simp [hk, hl]), ← append_assoc,
    arraycopy_end (by simp only [length_append, hk, hl, length_mssOption]), append_assoc, append_assoc,
    drop_left' hk]
  exact setLength_behind hk _ 16 _

end Built

variable {ck : Nat}

section Checksum

theorem sumBytes_eq (b : Bytes) (s : Nat) : sumBytes b s = s + (words b).sum := by
  fun_induction sumBytes b s
  case case1 hi lo b s ih =>
    have hs : hi.toNat <<< 8 ||| lo.toNat = hi.toNat * 256 + lo.toNat := by
      rw [← shiftLeft_add_eq_or_of_lt lo.toNat_lt, shiftLeft_eq]
    rw [ih, hs, words, sum_cons, add_assoc]
  case case2 hi s => simp [words, shiftLeft_eq]
  case case3 => simp [words]

theorem foldCarry_represents (s : Nat) : Represents 0xffff (foldCarry s) s := by
  fun_induction foldCarry s
  case case1 s h ih =>
    have hc : (s &&& 0xffff) + s >>> 16 = s % (0xffff + 1) + s / (0xffff + 1) := by
      rw [shiftRight_eq_div_pow]
      exact congrArg (· + _) (and_two_pow_sub_one_eq_mod s 16)
    rw [hc] at ih ⊢
    exact ⟨ih.le, ih.modEq.trans (carry_modEq _ _), ih.eq_zero_iff.trans (carry_eq_zero_iff _ _)⟩
  case case2 s h =>
    refine ⟨?_, rfl, Iff.rfl⟩
    rw [shiftRight_eq_div_pow] at h
    omega

theorem foldChecksum_eq (s : Nat) : foldChecksum s = 0xffff - foldCarry s := by
  have hl := (foldCarry_represents s).le
  have hm : (foldCarry s).toUInt16.toNat = foldCarry s := by
    simp only [toUInt16_eq, UInt16.toNat_ofNat']
    omega
  rw [foldChecksum, UInt16.toNat_not, hm]
  rfl

-- The checksum fills the sum of what it is for up to a word of all ones.
theorem dvd_add_foldChecksum (s : Nat) : 0xffff ∣ s + foldChecksum s := by
  rw [foldChecksum_eq]
  exact (foldCarry_represents s).dvd_add_sub

theorem foldChecksum_le (s : Nat) : foldChecksum s ≤ 0xffff := by
  rw [foldChecksum_eq]
  exact sub_le ..

theorem dvd_add_nonZero {s : Nat} (h : 0xffff ∣ s + ck) : 0xffff ∣ s + nonZero ck := by
  unfold nonZero
  split
  case isTrue hz =>
    rw [hz, add_zero] at h
    exact (Nat.dvd_add_left dvd_rfl).mpr h
  case isFalse => exact h

theorem nonZero_pos (ck : Nat) : 0 < nonZero ck := by
  unfold nonZero
  split <;> omega

theorem nonZero_le (h : ck ≤ 0xffff) : nonZero ck ≤ 0xffff := by
  unfold nonZero
  split <;> omega

theorem value_twoBytes {n : Nat} (h : n ≤ 0xffff) :
    (n >>> 8).toUInt8.toNat * 256 + (n &&& 0xff).toUInt8.toNat = n := by
  have hm : n &&& 0xff = n % 256 := and_two_pow_sub_one_eq_mod n 8
  rw [hm, shiftRight_eq_div_pow]
  simp only [toUInt8_eq, UInt8.toNat_ofNat']
  omega

theorem words_twoBytes {n : Nat} (h : n ≤ 0xffff) : words (twoBytes n) = [n] :=
  congrArg (fun w => [w]) (value_twoBytes h)

theorem sum_words_intBytes (v : UInt32) :
    (words (intBytes v)).sum = ((v >>> 16) &&& 0xffff).toNat + (v &&& 0xffff).toNat := by
  have hv := v.toNat_lt
  have hb (n : Nat) (hn : n < 32) : (v >>> n.toUInt32).toUInt8.toNat = v.toNat / 2 ^ n % 256 := by
    simp [shiftRight_eq_div_pow, mod_eq_of_lt hn, mod_eq_of_lt (hn.trans (by decide : 32 < 4294967296))]
  have h₀ : (v &&& 0xff).toUInt8.toNat = v.toNat % 256 := by
    rw [UInt32.toNat_toUInt8, UInt32.toNat_and]
    exact congrArg (· % 256) (and_two_pow_sub_one_eq_mod _ 8) |>.trans (mod_mod _ _)
  have h₁ : ((v >>> 16) &&& 0xffff).toNat = v.toNat / 0x10000 % 0x10000 := by
    rw [UInt32.toNat_and, UInt32.toNat_shiftRight]
    exact shiftRight_eq_div_pow _ _ ▸ and_two_pow_sub_one_eq_mod _ 16
  have h₂ : (v &&& 0xffff).toNat = v.toNat % 0x10000 := by
    rw [UInt32.toNat_and]
    exact and_two_pow_sub_one_eq_mod _ 16
  have h₈ := hb 8 (by decide)
  have h₁₆ := hb 16 (by decide)
  have h₂₄ := hb 24 (by decide)
  simp only [Nat.reducePow] at h₈ h₁₆ h₂₄
  change (v >>> 24).toUInt8.toNat * 256 + (v >>> 16).toUInt8.toNat +
    ((v >>> 8).toUInt8.toNat * 256 + (v &&& 0xff).toUInt8.toNat + 0) = _
  rw [h₀, h₁, h₂, show (v >>> 24).toUInt8.toNat = _ from h₂₄, show (v >>> 16).toUInt8.toNat = _ from h₁₆,
    show (v >>> 8).toUInt8.toNat = _ from h₈]
  omega

theorem verifies_filled {a b : Bytes} (ha : Even a.length) (hck : ck ≤ 0xffff)
    (hd : 0xffff ∣ (words (a ++ 0 :: 0 :: b)).sum + ck) (hp : 0 < (words (a ++ 0 :: 0 :: b)).sum + ck) :
    Verifies 0xffff (words (a ++ (twoBytes ck ++ b))) := by
  rw [verifies_iff (by decide) (words_le _)]
  have hs : (words (a ++ (twoBytes ck ++ b))).sum = (words (a ++ 0 :: 0 :: b)).sum + ck := by
    have hs := sum_words_fill ha (ck >>> 8).toUInt8 (ck &&& 0xff).toUInt8 b
    rw [value_twoBytes hck] at hs
    exact hs
  rw [hs]
  exact ⟨hp.ne', hd⟩

theorem header4_verifies (total : Nat) (protocol : UInt8) (srcIp dstIp : UInt32) :
    Verifies 0xffff (words (ipHeader4 total protocol srcIp dstIp (ipChecksum4 total protocol srcIp dstIp))) := by
  have he : ipHeader4 total protocol srcIp dstIp 0 = ([0x45, 0] ++ twoBytes total ++ [0, 0, 0, 0, 64, protocol]) ++
      0 :: 0 :: (intBytes srcIp ++ intBytes dstIp) := rfl
  have hd : 0xffff ∣ (words (ipHeader4 total protocol srcIp dstIp 0)).sum + ipChecksum4 total protocol srcIp dstIp := by
    have hd := dvd_add_foldChecksum (sumBytes (ipHeader4 total protocol srcIp dstIp 0) 0)
    rw [← ipChecksum4, sumBytes_eq, zero_add] at hd
    exact hd
  have hf : ipChecksum4 total protocol srcIp dstIp ≤ 0xffff := foldChecksum_le _
  generalize ipChecksum4 total protocol srcIp dstIp = ck at hd hf
  have he' : ipHeader4 total protocol srcIp dstIp ck = ([0x45, 0] ++ twoBytes total ++ [0, 0, 0, 0, 64, protocol]) ++
      (twoBytes ck ++ (intBytes srcIp ++ intBytes dstIp)) := by
    simp [ipHeader4]
  rw [he] at hd
  rw [he']
  refine verifies_filled ⟨5, by simp [twoBytes]⟩ hf hd ?_
  simp [words, twoBytes]

theorem transport4_dvd (srcIp dstIp : UInt32) (segment : Bytes) (protocol : UInt8) (hl : segment.length ≤ 0xffff) :
    0xffff ∣ (words (intBytes srcIp ++ intBytes dstIp ++ [0, protocol] ++ twoBytes segment.length ++ segment)).sum +
      calculateTransportChecksum4 srcIp dstIp segment protocol.toNat := by
  have hs : (words (intBytes srcIp ++ intBytes dstIp ++ [0, protocol] ++ twoBytes segment.length ++ segment)).sum =
      sumBytes segment (((srcIp >>> 16) &&& 0xffff).toNat + (srcIp &&& 0xffff).toNat +
        ((dstIp >>> 16) &&& 0xffff).toNat + (dstIp &&& 0xffff).toNat + protocol.toNat + segment.length) := by
    rw [words_append ⟨6, by simp [intBytes, twoBytes]⟩, words_append ⟨5, by simp [intBytes]⟩,
      words_append ⟨4, by simp [intBytes]⟩, words_append ⟨2, by simp [intBytes]⟩, words_twoBytes hl, sumBytes_eq]
    simp only [List.sum_append, sum_words_intBytes, words, sum_cons, sum_nil]
    simp
    omega
  rw [hs]
  exact dvd_add_foldChecksum _

theorem transport6_dvd (srcIp dstIp : Ipv6Addr) (segment : Bytes) (protocol : UInt8) (hl : segment.length ≤ 0xffff) :
    0xffff ∣ (words (srcIp.toList ++ dstIp.toList ++ fourBytes segment.length ++ [0, 0, 0, protocol] ++ segment)).sum +
      calculateTransportChecksum6 srcIp dstIp segment protocol.toNat := by
  have hs : (words (srcIp.toList ++ dstIp.toList ++ fourBytes segment.length ++ [0, 0, 0, protocol] ++ segment)).sum =
      sumBytes segment (sumBytes dstIp.toList (sumBytes srcIp.toList 0) + segment.length + protocol.toNat) := by
    have hd : segment.length / 0x10000 = 0 := div_eq_of_lt (by omega)
    have hm : segment.length % 0x10000 = segment.length := mod_eq_of_lt (by omega)
    rw [words_append ⟨20, by simp [fourBytes, twoBytes]⟩, words_append ⟨18, by simp [fourBytes, twoBytes]⟩,
      words_append ⟨16, by simp⟩, words_append ⟨8, by simp⟩, sumBytes_eq, sumBytes_eq, sumBytes_eq, fourBytes, hd, hm,
      words_append ⟨1, by simp [twoBytes]⟩, words_twoBytes hl, words_twoBytes (zero_le _)]
    simp only [List.sum_append, words, sum_cons, sum_nil]
    simp
  rw [hs]
  exact dvd_add_foldChecksum _

theorem transport_verifies {pre a b : Bytes} (hp : Even pre.length) (ha : Even a.length) (hck : ck ≤ 0xffff)
    (hd : 0xffff ∣ (words (pre ++ (a ++ 0 :: 0 :: b))).sum + ck) :
    Verifies 0xffff (words (pre ++ (a ++ (twoBytes (nonZero ck) ++ b)))) := by
  rw [← append_assoc] at hd ⊢
  have he : Even (pre ++ a).length := by
    rw [length_append]
    exact hp.add ha
  exact verifies_filled he (nonZero_le hck) (dvd_add_nonZero hd) (Nat.add_pos_right _ (nonZero_pos ck))

end Checksum

section Right

theorem ipv4Right {total : Nat} {protocol : UInt8} {srcIp dstIp : UInt32} {segment : Bytes}
    (hl : total = 20 + segment.length) (ht : total ≤ 0xffff)
    (hv : Verifies 0xffff (words (intBytes srcIp ++ intBytes dstIp ++ [0, protocol] ++ twoBytes segment.length ++ segment))) :
    Ipv4Right (ipHeader4 total protocol srcIp dstIp (ipChecksum4 total protocol srcIp dstIp) ++ segment) protocol
      segment where
  version := rfl
  total := by
    change some _ = some _
    rw [value_twoBytes ht, length_append, hl]
    rfl
  protocol_eq := rfl
  segment_eq := rfl
  header := header4_verifies total protocol srcIp dstIp
  transport := hv

theorem ipv6Right {nextHeader : UInt8} {srcIp dstIp : Ipv6Addr} {segment : Bytes} (hl : segment.length ≤ 0xffff)
    (hv : Verifies 0xffff (words (srcIp.toList ++ dstIp.toList ++ fourBytes segment.length ++ [0, 0, 0, nextHeader] ++
      segment))) :
    Ipv6Right (ipHeader6 segment.length nextHeader srcIp dstIp ++ segment) nextHeader segment where
  version := rfl
  length := by
    change some _ = some _
    rw [value_twoBytes hl]
  nextHeader_eq := rfl
  segment_eq := drop_left' (length_ipHeader6 ..)
  transport := by
    have ha : ((ipHeader6 segment.length nextHeader srcIp dstIp ++ segment).drop 8).take 32 =
        srcIp.toList ++ dstIp.toList := by
      change (srcIp.toList ++ dstIp.toList ++ segment).take 32 = _
      exact take_left' (by simp)
    rw [ha]
    exact hv

variable (mtu : Nat) (srcPort dstPort : UInt32) (seq ack : UInt64) (flags : UInt32)

theorem udpRight {data : Bytes} (hl : 8 + data.length ≤ 0xffff) :
    UdpRight (udpHeader srcPort dstPort (8 + data.length) ck ++ data) data where
  length := by
    change some _ = some _
    rw [value_twoBytes hl, length_append]
    rfl
  payload_eq := rfl

theorem tcpRight (mss : Nat) (data : Bytes) (ck : Nat) :
    TcpRight (tcpSegment srcPort dstPort seq ack flags mss data ck) (mssOption mss flags) data where
  offset := by
    change some _ = some _
    rw [length_mssOption]
    unfold optLen
    split <;> rfl
  options_eq := by
    have hl : (tcpHeader srcPort dstPort seq ack flags ck).length = 20 := rfl
    rw [tcpSegment, ← append_assoc, take_left' (by simp [hl]), drop_left' hl]
  payload_eq := by
    have hl : (tcpHeader srcPort dstPort seq ack flags ck).length = 20 := rfl
    rw [tcpSegment, ← append_assoc, drop_left' (by simp [hl])]

theorem udpSegment_eq (len ck : Nat) (data : Bytes) : udpHeader srcPort dstPort len ck ++ data =
      (shortBytes srcPort ++ shortBytes dstPort ++ twoBytes len) ++ (twoBytes ck ++ data) := by
  simp [udpHeader]

theorem tcpSegment_eq (mss : Nat) (data : Bytes) (ck : Nat) : tcpSegment srcPort dstPort seq ack flags mss data ck =
      (shortBytes srcPort ++ shortBytes dstPort ++ longBytes seq ++ longBytes ack ++
        [((5 + optLen flags / 4) <<< 4).toUInt8, flags.toUInt8, 0xff, 0xff]) ++
        (twoBytes ck ++ ([0, 0] ++ (mssOption mss flags ++ data))) := by
  simp [tcpSegment, tcpHeader]

theorem length_tcpSegment (mss : Nat) (data : Bytes) (ck : Nat) :
    (tcpSegment srcPort dstPort seq ack flags mss data ck).length = 20 + (optLen flags + data.length) := by
  rw [tcpSegment, length_append, length_append, length_mssOption]
  rfl

-- A kind of segment with a place for its checksum behind an even number of bytes.
section Filled

variable {seg : Nat → Bytes} {a b : Bytes} (hs : ∀ ck, seg ck = a ++ (twoBytes ck ++ b)) (ha : Even a.length)

include hs

theorem length_filled (ck ck' : Nat) : (seg ck).length = (seg ck').length := by
  rw [hs, hs]
  simp [twoBytes]

include ha

theorem ipv4Right_filled (srcIp dstIp : UInt32) (protocol : UInt8) {total : Nat} (ht : total = 20 + (seg 0).length)
    (hl : total < 2 ^ 16) :
    Ipv4Right (ipHeader4 total protocol srcIp dstIp (ipChecksum4 total protocol srcIp dstIp) ++
        seg (nonZero (calculateTransportChecksum4 srcIp dstIp (seg 0) protocol.toNat))) protocol
      (seg (nonZero (calculateTransportChecksum4 srcIp dstIp (seg 0) protocol.toNat))) := by
  have hd := transport4_dvd srcIp dstIp (seg 0) protocol (by omega)
  have hc : calculateTransportChecksum4 srcIp dstIp (seg 0) protocol.toNat ≤ 0xffff := foldChecksum_le _
  generalize calculateTransportChecksum4 srcIp dstIp (seg 0) protocol.toNat = ck at hd hc
  have hn := length_filled hs (nonZero ck) 0
  refine ipv4Right (by rw [ht, hn]) (by omega) ?_
  rw [hn, hs (nonZero ck)]
  refine transport_verifies ⟨6, by simp [intBytes, twoBytes]⟩ ha hc ?_
  nth_rewrite 2 [hs 0] at hd
  exact hd

theorem ipv6Right_filled (srcIp dstIp : Ipv6Addr) (nextHeader : UInt8) {len : Nat} (hn : len = (seg 0).length)
    (hl : len < 2 ^ 16) :
    Ipv6Right (ipHeader6 len nextHeader srcIp dstIp ++
        seg (nonZero (calculateTransportChecksum6 srcIp dstIp (seg 0) nextHeader.toNat))) nextHeader
      (seg (nonZero (calculateTransportChecksum6 srcIp dstIp (seg 0) nextHeader.toNat))) := by
  have hd := transport6_dvd srcIp dstIp (seg 0) nextHeader (by omega)
  have hc : calculateTransportChecksum6 srcIp dstIp (seg 0) nextHeader.toNat ≤ 0xffff := foldChecksum_le _
  generalize calculateTransportChecksum6 srcIp dstIp (seg 0) nextHeader.toNat = ck at hd hc
  have hk := length_filled hs (nonZero ck) 0
  rw [show len = (seg (nonZero ck)).length by rw [hn, hk]]
  refine ipv6Right (by omega) ?_
  rw [hk, hs (nonZero ck)]
  refine transport_verifies ⟨20, by simp [fourBytes, twoBytes]⟩ ha hc ?_
  nth_rewrite 2 [hs 0] at hd
  exact hd

end Filled

-- Every packet has lengths, a data offset and checksums that a receiver agrees with, as long as its length fits.
theorem build_right : (∀ srcIp dstIp data, 40 + optLen flags + (data.getD []).length < 2 ^ 16 → ∃ segment,
      Ipv4Right (buildTcp4 mtu srcIp dstIp srcPort dstPort data seq ack flags) 6 segment ∧
        TcpRight segment (mssOption (max (mtu - 40) 536) flags) (data.getD [])) ∧
    (∀ srcIp dstIp data, 20 + optLen flags + (data.getD []).length < 2 ^ 16 → ∃ segment,
      Ipv6Right (buildTcp6 mtu srcIp dstIp srcPort dstPort data seq ack flags) 6 segment ∧
        TcpRight segment (mssOption (max (mtu - 60) 536) flags) (data.getD [])) ∧
    (∀ srcIp dstIp data, 28 + data.length < 2 ^ 16 → ∃ segment,
      Ipv4Right (buildUdp4 srcIp dstIp srcPort dstPort data) 17 segment ∧ UdpRight segment data) ∧
    (∀ srcIp dstIp data, 8 + data.length < 2 ^ 16 → ∃ segment,
      Ipv6Right (buildUdp6 srcIp dstIp srcPort dstPort data) 17 segment ∧ UdpRight segment data) := by
  have ht : Even (shortBytes srcPort ++ shortBytes dstPort ++ longBytes seq ++ longBytes ack ++
      [((5 + optLen flags / 4) <<< 4).toUInt8, flags.toUInt8, 0xff, 0xff]).length := ⟨8, rfl⟩
  have hu (len : Nat) : Even (shortBytes srcPort ++ shortBytes dstPort ++ twoBytes len).length := ⟨3, rfl⟩
  refine ⟨fun srcIp dstIp data h => ?_, fun srcIp dstIp data h => ?_, fun srcIp dstIp data h => ?_,
    fun srcIp dstIp data h => ?_⟩
  case refine_1 =>
    rw [buildTcp4_eq]
    refine ⟨_, ipv4Right_filled (tcpSegment_eq srcPort dstPort seq ack flags _ _) ht srcIp dstIp 6 ?_ h, tcpRight ..⟩
    rw [length_tcpSegment]
    omega
  case refine_2 =>
    rw [buildTcp6_eq]
    refine ⟨_, ipv6Right_filled (tcpSegment_eq srcPort dstPort seq ack flags _ _) ht srcIp dstIp 6 ?_ h, tcpRight ..⟩
    rw [length_tcpSegment]
    omega
  case refine_3 =>
    rw [buildUdp4_eq]
    refine ⟨_, ipv4Right_filled (fun ck => udpSegment_eq srcPort dstPort _ ck data) (hu _) srcIp dstIp 17 ?_ (by omega),
      udpRight srcPort dstPort (by omega)⟩
    rw [length_append]
    rfl
  case refine_4 =>
    rw [buildUdp6_eq]
    refine ⟨_, ipv6Right_filled (fun ck => udpSegment_eq srcPort dstPort _ ck data) (hu _) srcIp dstIp 17 ?_ h,
      udpRight srcPort dstPort (by omega)⟩
    rw [length_append]
    rfl

theorem build_right_odd :
    8 + [7].length < 2 ^ 16 ∧ ∃ segment, Ipv6Right (buildUdp6 (Vector.replicate 16 1) (Vector.replicate 16 2) 53 5353 [7]) 17
      segment ∧ UdpRight segment [7] :=
  ⟨by decide, (build_right 1280 53 5353 0 0 0).2.2.2 _ _ [7] (by decide)⟩

end Right

end App.TunBridge
