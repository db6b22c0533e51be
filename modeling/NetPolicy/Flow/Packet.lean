/-
Packets: IPv4 and TCP headers, five-tuples and TCP segments.

Bytes are read at the offsets of the wire format.  A read takes the proof that its
index is inside the packet, so that a header that parses was read in bounds.  An
address is kept as its four octets in wire order; the source keeps the same four
bytes in a machine word, which it only compares and prints.
-/

import NetPolicy.Policy.Rule

namespace NetPolicy.Flow

open NetPolicy.Policy

/-! ### Reading bytes -/

def byteAt (bytes : List UInt8) (index : Nat) (inside : index < bytes.length) : Nat :=
  (bytes.get ⟨index, inside⟩).toNat

def be16 (bytes : List UInt8) (index : Nat) (inside : index + 1 < bytes.length) : Nat :=
  byteAt bytes index (by omega) * 256 + byteAt bytes (index + 1) inside

def be32 (bytes : List UInt8) (index : Nat) (inside : index + 3 < bytes.length) : Nat :=
  be16 bytes index (by omega) * 65536 + be16 bytes (index + 2) inside

def addressAt (bytes : List UInt8) (index : Nat) (inside : index + 3 < bytes.length) : Ipv4Addr :=
  ofOctets (byteAt bytes index (by omega)) (byteAt bytes (index + 1) (by omega))
    (byteAt bytes (index + 2) (by omega)) (byteAt bytes (index + 3) inside)

/-! ### Headers -/

def ipprotoTcp : Nat := 6
def ipprotoUdp : Nat := 17

structure Ipv4Header where
  headerLen : Nat
  protocol : Nat
  saddr : Ipv4Addr
  daddr : Ipv4Addr
  totLen : Nat
deriving DecidableEq, Repr

/-- The version is not looked at. -/
def parseIpv4Header (bytes : List UInt8) : Option Ipv4Header :=
  if long : 20 ≤ bytes.length then
    let headerLen := byteAt bytes 0 (by omega) % 16 * 4
    if headerLen < 20 ∨ bytes.length < headerLen then none
    else
      some
        { headerLen := headerLen
          protocol := byteAt bytes 9 (by omega)
          saddr := addressAt bytes 12 (by omega)
          daddr := addressAt bytes 16 (by omega)
          totLen := be16 bytes 2 (by omega) }
  else none

structure TcpHeader where
  headerLen : Nat
  source : Nat
  dest : Nat
  seq : Nat
  syn : Bool
  fin : Bool
  rst : Bool
deriving DecidableEq, Repr

def parseTcpHeader (bytes : List UInt8) : Option TcpHeader :=
  if long : 20 ≤ bytes.length then
    let headerLen := byteAt bytes 12 (by omega) / 16 * 4
    if headerLen < 20 ∨ bytes.length < headerLen then none
    else
      let flags := byteAt bytes 13 (by omega)
      some
        { headerLen := headerLen
          source := be16 bytes 0 (by omega)
          dest := be16 bytes 2 (by omega)
          seq := be32 bytes 4 (by omega)
          syn := flags.testBit 1
          fin := flags.testBit 0
          rst := flags.testBit 2 }
  else none

/-! ### Five-tuples -/

structure FiveTupleResult where
  proto : Nat
  totLen : Nat
  ipHeaderLen : Nat
  srcPort : Nat
  dstPort : Nat
  srcAddr : Ipv4Addr
  dstAddr : Ipv4Addr
  recognized : Bool
deriving DecidableEq, Repr

def FiveTupleResult.default : FiveTupleResult :=
  { proto := 0
    totLen := 0
    ipHeaderLen := 0
    srcPort := 0
    dstPort := 0
    srcAddr := 0
    dstAddr := 0
    recognized := false }

def portsOf (protocol : Nat) (payload : List UInt8) : Option (Nat × Nat) :=
  if protocol = ipprotoTcp then
    (parseTcpHeader payload).map fun tcp => (tcp.source, tcp.dest)
  else if protocol = ipprotoUdp then
    if long : 8 ≤ payload.length then
      some (be16 payload 0 (by omega), be16 payload 2 (by omega))
    else none
  else if protocol = ipprotoIcmp then some (0, 0)
  else none

def parseFiveTuple (bytes : List UInt8) : FiveTupleResult :=
  match parseIpv4Header bytes with
  | none => FiveTupleResult.default
  | some ip =>
      match portsOf ip.protocol (bytes.drop ip.headerLen) with
      | none => FiveTupleResult.default
      | some (srcPort, dstPort) =>
          { proto := ip.protocol
            totLen := ip.totLen
            ipHeaderLen := ip.headerLen
            srcPort := srcPort
            dstPort := dstPort
            srcAddr := ip.saddr
            dstAddr := ip.daddr
            recognized := true }

/-! ### Segments -/

structure ConnectionId where
  localIp : Ipv4Addr
  foreignIp : Ipv4Addr
  localPort : Nat
  foreignPort : Nat
deriving DecidableEq, Repr

def ConnectionId.peer (id : ConnectionId) : ConnectionId :=
  { localIp := id.foreignIp
    foreignIp := id.localIp
    localPort := id.foreignPort
    foreignPort := id.localPort }

@[simp] theorem ConnectionId.peer_peer (id : ConnectionId) : id.peer.peer = id := rfl

structure Segment where
  id : ConnectionId
  seq : Nat
  syn : Bool
  fin : Bool
  rst : Bool
  ipHeaderLen : Nat
  payloadOffset : Nat
  payloadLen : Nat
deriving DecidableEq, Repr

/-- The TCP payload: everything behind the headers. -/
def Segment.payload (segment : Segment) (pkg : List UInt8) : List UInt8 :=
  pkg.drop segment.payloadOffset

def Segment.ofHeaders (bytes : List UInt8) (ip : Ipv4Header) (tcp : TcpHeader) : Segment :=
  { id :=
      { localIp := ip.saddr
        foreignIp := ip.daddr
        localPort := tcp.source
        foreignPort := tcp.dest }
    seq := tcp.seq
    syn := tcp.syn
    fin := tcp.fin
    rst := tcp.rst
    ipHeaderLen := ip.headerLen
    payloadOffset := ip.headerLen + tcp.headerLen
    payloadLen := bytes.length - (ip.headerLen + tcp.headerLen) }

def parseSegment (bytes : List UInt8) : Option Segment :=
  match parseIpv4Header bytes with
  | none => none
  | some ip =>
      if ip.protocol = ipprotoTcp then
        (parseTcpHeader (bytes.drop ip.headerLen)).map (Segment.ofHeaders bytes ip)
      else none

theorem parseSegment_eq_some_iff {bytes : List UInt8} {segment : Segment} :
    parseSegment bytes = some segment ↔
      ∃ ip tcp, parseIpv4Header bytes = some ip ∧ ip.protocol = ipprotoTcp ∧
        parseTcpHeader (bytes.drop ip.headerLen) = some tcp ∧
        segment = Segment.ofHeaders bytes ip tcp := by
  unfold parseSegment
  cases ipAt : parseIpv4Header bytes with
  | none => simp
  | some ip =>
      dsimp only
      by_cases tcpProtocol : ip.protocol = ipprotoTcp
      · rw [if_pos tcpProtocol, Option.map_eq_some_iff]
        constructor
        · rintro ⟨tcp, tcpAt, rfl⟩
          exact ⟨ip, tcp, rfl, tcpProtocol, tcpAt, rfl⟩
        · rintro ⟨_, tcp, same, -, tcpAt, rfl⟩
          cases same
          exact ⟨tcp, tcpAt, rfl⟩
      · rw [if_neg tcpProtocol]
        constructor
        · intro impossible
          cases impossible
        · rintro ⟨_, _, same, isTcp, -⟩
          cases same
          exact absurd isTcp tcpProtocol

theorem length_of_parseIpv4Header {bytes : List UInt8} {ip : Ipv4Header}
    (parsed : parseIpv4Header bytes = some ip) :
    20 ≤ bytes.length ∧ ip.headerLen ≤ bytes.length := by
  unfold parseIpv4Header at parsed
  split at parsed
  · rename_i long
    dsimp only at parsed
    split at parsed
    · cases parsed
    · rename_i fits
      cases parsed
      exact ⟨long, by dsimp only; omega⟩
  · cases parsed

theorem length_of_parseTcpHeader {bytes : List UInt8} {tcp : TcpHeader}
    (parsed : parseTcpHeader bytes = some tcp) :
    20 ≤ tcp.headerLen ∧ tcp.headerLen ≤ bytes.length := by
  unfold parseTcpHeader at parsed
  split at parsed
  · dsimp only at parsed
    split at parsed
    · cases parsed
    · rename_i fits
      cases parsed
      dsimp only
      omega
  · cases parsed

theorem parseFiveTuple_of_headers {bytes : List UInt8} {ip : Ipv4Header} {tcp : TcpHeader}
    (ipAt : parseIpv4Header bytes = some ip) (tcpProtocol : ip.protocol = ipprotoTcp)
    (tcpAt : parseTcpHeader (bytes.drop ip.headerLen) = some tcp) :
    parseFiveTuple bytes =
      { proto := ipprotoTcp
        totLen := ip.totLen
        ipHeaderLen := ip.headerLen
        srcPort := tcp.source
        dstPort := tcp.dest
        srcAddr := ip.saddr
        dstAddr := ip.daddr
        recognized := true } := by
  simp only [parseFiveTuple, ipAt, portsOf, tcpProtocol, if_true, tcpAt, Option.map_some]

/-- The tracker and the policy matcher agree on what a TCP packet is, and on its
addresses and ports. -/
theorem parseFiveTuple_of_parseSegment {bytes : List UInt8} {segment : Segment}
    (parsed : parseSegment bytes = some segment) :
    let tuple := parseFiveTuple bytes
    tuple.recognized = true ∧ tuple.proto = ipprotoTcp ∧
      tuple.srcAddr = segment.id.localIp ∧ tuple.dstAddr = segment.id.foreignIp ∧
      tuple.srcPort = segment.id.localPort ∧ tuple.dstPort = segment.id.foreignPort := by
  obtain ⟨ip, tcp, ipAt, tcpProtocol, tcpAt, rfl⟩ := parseSegment_eq_some_iff.mp parsed
  rw [parseFiveTuple_of_headers ipAt tcpProtocol tcpAt]
  exact ⟨rfl, rfl, rfl, rfl, rfl, rfl⟩

theorem parseSegment_isSome_of_recognized {bytes : List UInt8}
    (recognized : (parseFiveTuple bytes).recognized = true)
    (tcpProtocol : (parseFiveTuple bytes).proto = ipprotoTcp) :
    ∃ segment, parseSegment bytes = some segment := by
  unfold parseFiveTuple at recognized tcpProtocol
  cases ipAt : parseIpv4Header bytes with
  | none =>
      rw [ipAt] at recognized
      cases recognized
  | some ip =>
      rw [ipAt] at recognized tcpProtocol
      dsimp only at recognized tcpProtocol
      cases portsAt : portsOf ip.protocol (bytes.drop ip.headerLen) with
      | none =>
          rw [portsAt] at recognized
          cases recognized
      | some ports =>
          rw [portsAt] at tcpProtocol
          dsimp only at tcpProtocol
          rw [portsOf, if_pos tcpProtocol] at portsAt
          rcases Option.map_eq_some_iff.mp portsAt with ⟨tcp, tcpAt, -⟩
          exact ⟨_, parseSegment_eq_some_iff.mpr ⟨ip, tcp, ipAt, tcpProtocol, tcpAt, rfl⟩⟩

theorem bounds_of_parseSegment {bytes : List UInt8} {segment : Segment}
    (parsed : parseSegment bytes = some segment) :
    20 ≤ bytes.length ∧ segment.payloadOffset ≤ bytes.length ∧
      segment.payloadLen = bytes.length - segment.payloadOffset := by
  obtain ⟨ip, tcp, ipAt, -, tcpAt, rfl⟩ := parseSegment_eq_some_iff.mp parsed
  have ipBounds := length_of_parseIpv4Header ipAt
  have tcpBounds := length_of_parseTcpHeader tcpAt
  rw [List.length_drop] at tcpBounds
  exact ⟨ipBounds.1, by dsimp only [Segment.ofHeaders]; omega, rfl⟩

/-! ### Building packets -/

def octets32 (value : Nat) : List UInt8 :=
  [UInt8.ofNat (value / 16777216), UInt8.ofNat (value / 65536), UInt8.ofNat (value / 256),
    UInt8.ofNat value]

def octets16 (value : Nat) : List UInt8 := [UInt8.ofNat (value / 256), UInt8.ofNat value]

def plainPacket (id : ConnectionId) (seq : Nat) (flags : UInt8) (payload : List UInt8) :
    List UInt8 :=
  [0x45, 0] ++ octets16 (40 + payload.length) ++ [0, 0, 0, 0, 64, 6, 0, 0] ++
    octets32 id.localIp.toNat ++ octets32 id.foreignIp.toNat ++
    octets16 id.localPort ++ octets16 id.foreignPort ++ octets32 seq ++
    [0, 0, 0, 0, 0x50, flags, 0, 0, 0, 0, 0, 0] ++ payload

end NetPolicy.Flow
