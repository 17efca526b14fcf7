import SoildTunnel.App.SocksUdp
import SoildTunnel.Engine.Socks.Associate
import SoildTunnel.Engine.Upstream.Header
import SoildTunnel.Lib.Window
import SoildTunnel.Rust.Utf8

-- The headers of datagrams mean the same to all who write and read them.
namespace App.TunBridge

open Kotlin List Nat
open Engine (IpAddr Ipv4Addr Ipv6Addr SocketAddr)
open Engine.Socks
open Engine.Upstream (encodeAddress encodeUdpHeader decodeUdpHeader portAt)
open Window (At)

def addressBytes : IpAddr → Bytes
  | .v4 ip => ip.toList
  | .v6 ip => ip.toList

def addressType : IpAddr → UInt8
  | .v4 _ => ATYP_V4
  | .v6 _ => ATYP_V6

section Addresses

theorem ofBytes4_toList (ip : Ipv4Addr) : ofBytes4 ip.toList = some ip := by
  have h : ip = .new ip[0] ip[1] ip[2] ip[3] := by
    ext i hi
    obtain rfl | rfl | rfl | rfl : i = 0 ∨ i = 1 ∨ i = 2 ∨ i = 3 := by omega
    all_goals rfl
  rw [h]
  rfl

theorem ofBytes16_toList (ip : Ipv6Addr) : ofBytes16 ip.toList = some ip := by
  rw [ofBytes16, dif_pos ip.length_toList]
  congr 1
  ext i hi
  simp

theorem ofBytes4_eq_none (ip : Ipv6Addr) : ofBytes4 ip.toList = none := by
  have h := ip.length_toList
  match hb : ip.toList with
  | [a, b, c, d] => simp [hb] at h
  | [] | [_] | [_, _] | [_, _, _] | _ :: _ :: _ :: _ :: _ :: _ => rfl

theorem getByAddress_v4 (ip : Ipv4Addr) : InetAddress.getByAddress ip.toList = some (.inet4 ip) := by
  rw [InetAddress.getByAddress, ofBytes4_toList]
  rfl

theorem getByAddress_v6 (ip : Ipv6Addr) : InetAddress.getByAddress ip.toList = some (.ofIpv6 ip) := by
  rw [InetAddress.getByAddress, ofBytes4_eq_none, ofBytes16_toList]
  rfl

theorem ip_ofIpv6 (ip : Ipv6Addr) : (InetAddress.ofIpv6 ip).ip = normalizeIp (.v6 ip) := by
  unfold InetAddress.ofIpv6
  split
  case h_1 h => simp only [normalizeIp, h, InetAddress.ip]
  case h_2 h => simp only [normalizeIp, h, InetAddress.ip]

end Addresses

section Readers

variable {msg rest : Bytes} {pos : Nat} {port : UInt16}

theorem readExact_append {n : Nat} {a : Bytes} (h : a.length = n) (b : Bytes) : readExact n (a ++ b) = some (a, b) := by
  rw [readExact, ← h, if_pos (by simp), take_left, drop_left]

theorem readPort_append (port : UInt16) (d : Bytes) : readPort (Octets.toBytes16 port ++ d) = some (port, d) := by
  rw [readPort, readExact_append (show (Octets.toBytes16 port).length = 2 from rfl)]
  simp only [Option.map_some, Octets.bigEndian_toBytes16, UInt16.ofNat_toNat]

theorem getShort_of_at (h : At msg pos (Octets.toBytes16 port ++ rest)) : getShort msg pos = some port.toNat := by
  obtain ⟨hi, lo, hhi, hlo, hn⟩ := h.pair
  rw [getShort, hhi, hlo, ← hn]
  rfl

theorem portAt_of_at (h : At msg pos (Octets.toBytes16 port ++ rest)) : portAt msg pos = port := by
  rw [portAt, Window.bigEndian_of_at h, UInt16.ofNat_toNat]

theorem copyOfRange_of_at {a : Bytes} {stop : Nat} (h : At msg pos (a ++ rest)) (hs : stop = pos + a.length) :
    copyOfRange msg pos stop = a := by
  rw [copyOfRange, hs, Nat.add_sub_cancel_left, h.take]

theorem portBytes_eq (port : UInt16) :
    [(port.toNat >>> 8).toUInt8, (port.toNat &&& 0xff).toUInt8] = Octets.toBytes16 port := by
  have h : (port.toNat &&& 0xff) = port.toNat % 256 := and_two_pow_sub_one_eq_mod port.toNat 8
  simp only [Octets.toBytes16, List.cons.injEq, and_true, ← UInt8.toNat_inj]
  constructor
  · simp
  · simp [h]

end Readers

theorem encodeUdpHeader_eq (a : SocketAddr) (d : Bytes) : encodeUdpHeader a ++ d =
    0x00 :: 0x00 :: 0x00 :: addressType a.ip :: (addressBytes a.ip ++ (Octets.toBytes16 a.port ++ d)) := by
  obtain ⟨ip, port⟩ := a
  cases ip
  all_goals
    simp only [encodeUdpHeader, encodeAddress, append_assoc, cons_append, nil_append]
    rfl

theorem buildUdpReply_eq (a : SocketAddr) (d : Bytes) : buildUdpReply a d = encodeUdpHeader a ++ d := by
  obtain ⟨ip, port⟩ := a
  rw [encodeUdpHeader_eq]
  cases ip
  all_goals
    simp only [buildUdpReply, append_assoc, cons_append, nil_append]
    rfl

theorem socksUdpHeader_address (a : SocketAddr) (d : Bytes) :
    socksUdpHeader none (addressBytes a.ip) a.port.toNat ++ d = encodeUdpHeader a ++ d := by
  obtain ⟨ip, port⟩ := a
  rw [encodeUdpHeader_eq]
  simp only [socksUdpHeader, portBytes_eq, append_assoc, cons_append, nil_append]
  cases ip
  case v4 ip => simp only [addressBytes, ip.length_toList, if_true]; rfl
  case v6 ip => simp only [addressBytes, ip.length_toList]; rfl

theorem readTarget_address (ip : IpAddr) (port : UInt16) (d : Bytes) :
    readTarget (addressType ip) (addressBytes ip ++ (Octets.toBytes16 port ++ d)) = some (.ip ip, port, d) := by
  cases ip
  case v4 ip =>
    simp [readTarget, readAddress, addressType, addressBytes, readExact_append ip.length_toList, ofBytes4_toList, readPort_append]
  case v6 ip =>
    simp [readTarget, readAddress, addressType, addressBytes, ATYP_V6, ATYP_V4, readExact_append ip.length_toList, ofBytes16_toList,
      readPort_append]

theorem parseUdpRequest_header (a : SocketAddr) (d : Bytes) :
    parseUdpRequest (encodeUdpHeader a ++ d) = some (.ip a.ip, a.port, d) := by
  rw [encodeUdpHeader_eq, parseUdpRequest, if_neg (by decide), readTarget_address]

theorem parseUdpRequest_domain (domain : Text) (address : Bytes) (port : UInt16) (d : Bytes)
    (h : (toByteArray domain).length ≤ 255) :
    parseUdpRequest (socksUdpHeader (some domain) address port.toNat ++ d) = some (.domain (envText domain), port, d) := by
  have hl : (toByteArray domain).length.toUInt8.toNat = (toByteArray domain).length := Rust.Text.toNat_ofNat_of_lt (by omega)
  have hb : Octets.bigEndian [(toByteArray domain).length.toUInt8] = (toByteArray domain).length := by
    simp only [Octets.bigEndian, foldl_cons, foldl_nil, zero_mul, zero_add, hl]
  have hu : Rust.Text.fromUtf8Lossy (toByteArray domain) = envText domain := Rust.Text.fromUtf8Lossy_utf8 _
  have h1 (b : Bytes) : readExact 1 ((toByteArray domain).length.toUInt8 :: b) = some ([(toByteArray domain).length.toUInt8], b) :=
    readExact_append (a := [_]) rfl b
  simp only [socksUdpHeader, portBytes_eq, append_assoc, cons_append, nil_append, parseUdpRequest]
  change readTarget ATYP_DOMAIN _ = _
  simp [readTarget, readAddress, ATYP_DOMAIN, ATYP_V6, ATYP_V4, h1, hb, hu, readExact_append, readPort_append]

section Windows

variable (a : SocketAddr) (d : Bytes)

theorem at_address : At (encodeUdpHeader a ++ d) 4 (addressBytes a.ip ++ (Octets.toBytes16 a.port ++ d)) := by
  have h := At.start (encodeUdpHeader a ++ d)
  rw [encodeUdpHeader_eq] at h ⊢
  exact h.tail.tail.tail.tail

theorem length_header : (encodeUdpHeader a).length = 4 + (addressBytes a.ip).length + 2 := by
  have h := (at_address a []).length
  rw [append_nil, append_nil, length_append] at h
  rw [h]
  exact (add_assoc ..).symm

theorem decodeUdpHeader_header : decodeUdpHeader (encodeUdpHeader a ++ d) = some (a, (encodeUdpHeader a).length) := by
  have h := at_address a d
  have hb := h.take
  have hp := portAt_of_at h.skip
  have hl := length_header a
  have hz : (encodeUdpHeader a ++ d).getD 2 0 = 0 := by rw [encodeUdpHeader_eq]; rfl
  have ht : (encodeUdpHeader a ++ d).getD 3 0 = addressType a.ip := by rw [encodeUdpHeader_eq]; rfl
  rw [decodeUdpHeader, hz, ht, length_append]
  obtain ⟨ip, port⟩ := a
  cases ip
  case v4 ip =>
    have hi : (addressBytes (.v4 ip)).length = 4 := ip.length_toList
    rw [hi] at hl hb hp
    rw [if_neg (by simp; omega), if_pos (show addressType (.v4 ip) = Engine.Upstream.ATYP_V4 from rfl), if_neg (by omega), hb,
      hp, hl]
    change (ofBytes4 ip.toList).map _ = _
    rw [ofBytes4_toList]
    rfl
  case v6 ip =>
    have hi : (addressBytes (.v6 ip)).length = 16 := ip.length_toList
    have hne : addressType (.v6 ip) ≠ Engine.Upstream.ATYP_V4 := show ATYP_V6 ≠ _ by decide
    rw [hi] at hl hb hp
    rw [if_neg (by simp; omega), if_neg hne,
      if_pos (show addressType (.v6 ip) = Engine.Upstream.ATYP_V6 from rfl), if_neg (by omega), hb, hp, hl]
    change (ofBytes16 ip.toList).map _ = _
    rw [ofBytes16_toList]
    rfl

end Windows

theorem parseSocksUdp_header (getByName : Bytes → Option InetAddress) (a : SocketAddr) (d : Bytes) (p : Packet)
    (h : p.data.take p.len = encodeUdpHeader a ++ d) :
    (parseSocksUdp getByName p).map (fun (source, payload) => (source.address.ip, source.port, payload)) =
      some (normalizeIp a.ip, a.port.toNat, d) := by
  have hdata : p.data = encodeUdpHeader a ++ (d ++ p.data.drop p.len) := by
    rw [← append_assoc, ← h, take_append_drop]
  have hlen : p.len = (encodeUdpHeader a).length + d.length := by
    rw [← length_append, ← h, length_take, min_eq_left p.len_le]
  have hl := length_header a
  have hat := at_address a (d ++ p.data.drop p.len)
  rw [← hdata] at hat
  have hport := getShort_of_at hat.skip
  have htype : p.data[3]? = some (addressType a.ip) := by rw [hdata, encodeUdpHeader_eq]; rfl
  obtain ⟨ip, port⟩ := a
  cases ip
  case v4 ip =>
    have hi : (addressBytes (.v4 ip)).length = 4 := ip.length_toList
    have hty : addressType (.v4 ip) = 1 := rfl
    have haddr : copyOfRange p.data 4 8 = ip.toList := copyOfRange_of_at hat (congrArg (4 + ·) hi.symm)
    have hd := hat.skip.skip
    rw [hi] at hl hport hd
    have hpay : copyOfRange p.data 10 p.len = d := copyOfRange_of_at hd (by omega)
    have h4 : ¬ p.len < 4 := by omega
    have h10 : ¬ p.len < 10 := by omega
    simp [parseSocksUdp, htype, hty, haddr, getByAddress_v4, hport, hpay, h4, h10, InetAddress.ip, normalizeIp]
  case v6 ip =>
    have hi : (addressBytes (.v6 ip)).length = 16 := ip.length_toList
    have hty : addressType (.v6 ip) = 4 := rfl
    have haddr : copyOfRange p.data 4 20 = ip.toList := copyOfRange_of_at hat (congrArg (4 + ·) hi.symm)
    have hd := hat.skip.skip
    rw [hi] at hl hport hd
    have hpay : copyOfRange p.data 22 p.len = d := copyOfRange_of_at hd (by omega)
    have h4 : ¬ p.len < 4 := by omega
    have h22 : ¬ p.len < 22 := by omega
    simp [parseSocksUdp, htype, hty, haddr, getByAddress_v6, hport, hpay, h4, h22, ip_ofIpv6]

theorem socksUdp_agree (getByName : Bytes → Option InetAddress) (a : SocketAddr) (d : Bytes) :
    parseUdpRequest (encodeUdpHeader a ++ d) = some (.ip a.ip, a.port, d) ∧
    (∃ offset ≤ (buildUdpReply a d).length,
      decodeUdpHeader (buildUdpReply a d) = some (a, offset) ∧ (buildUdpReply a d).drop offset = d) ∧
    (∀ p : Packet, p.data.take p.len = buildUdpReply a d →
      (parseSocksUdp getByName p).map (fun (source, payload) => (source.address.ip, source.port, payload)) =
        some (normalizeIp a.ip, a.port.toNat, d)) ∧
    parseUdpRequest (socksUdpHeader none (addressBytes a.ip) a.port.toNat ++ d) = some (.ip a.ip, a.port, d) ∧
    ∀ (domain : Text) (address : Bytes), (toByteArray domain).length ≤ 255 →
      parseUdpRequest (socksUdpHeader (some domain) address a.port.toNat ++ d) = some (.domain (envText domain), a.port, d) := by
  rw [buildUdpReply_eq, socksUdpHeader_address]
  refine ⟨parseUdpRequest_header a d, ⟨_, ?_, decodeUdpHeader_header a d, drop_left⟩, ?_, parseUdpRequest_header a d, ?_⟩
  · rw [length_append]
    exact le_add_right _ _
  · exact fun p hp => parseSocksUdp_header getByName a d p hp
  · exact fun domain address hl => parseUdpRequest_domain domain address a.port d hl

def mappedSource : SocketAddr :=
  ⟨.v6 #v[0, 0, 0, 0, 0, 0, 0, 0, 0, 0, 255, 255, 1, 2, 3, 4], 53⟩

def mappedPacket : Packet where
  data := buildUdpReply mappedSource [7]
  len := (buildUdpReply mappedSource [7]).length
  len_le := le_refl _

theorem not_parseSocksUdp_mapped :
    (parseSocksUdp (fun _ => none) mappedPacket).map (fun (source, payload) => (source.address.ip, source.port, payload)) ≠
      some (mappedSource.ip, mappedSource.port.toNat, [7]) := by
  decide +kernel

end App.TunBridge
