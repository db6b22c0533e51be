/-
The two packet parsers, index by index.

The parsers are written here with the reads, slices and differences the code makes, in its
order, each of which could panic.  They never do: they compute what the parsers over bounded
reads compute.  The matcher's five-tuple and the tracker's decision about one packet then
agree, and the offsets of a decision lie inside the packet.
-/

import NetPolicy.Library.CheckedReads
import NetPolicy.Flow.FlowEngine

namespace NetPolicy.Flow

open NetPolicy.Policy CheckedReads

/-! ### The code's reads -/

namespace Indexed

def byteAt (bytes : List UInt8) (position : Nat) : Checked Nat := do
  let byte ← index bytes position
  pure byte.toNat

def be16 (bytes : List UInt8) (position : Nat) : Checked Nat := do
  let high ← byteAt bytes position
  let low ← byteAt bytes (position + 1)
  pure (high * 256 + low)

def be32 (bytes : List UInt8) (position : Nat) : Checked Nat := do
  let high ← be16 bytes position
  let low ← be16 bytes (position + 2)
  pure (high * 65536 + low)

def addressAt (bytes : List UInt8) (position : Nat) : Checked Ipv4Addr := do
  let first ← byteAt bytes position
  let second ← byteAt bytes (position + 1)
  let third ← byteAt bytes (position + 2)
  let fourth ← byteAt bytes (position + 3)
  pure (ofOctets first second third fourth)

def parseIpv4Header (bytes : List UInt8) : Checked (Option Ipv4Header) :=
  if bytes.length < 20 then pure none
  else do
    let ihl ← byteAt bytes 0
    let headerLen := ihl % 16 * 4
    if headerLen < 20 ∨ bytes.length < headerLen then pure none
    else do
      let protocol ← byteAt bytes 9
      let saddr ← addressAt bytes 12
      let daddr ← addressAt bytes 16
      let totLen ← be16 bytes 2
      pure (some
        { headerLen := headerLen
          protocol := protocol
          saddr := saddr
          daddr := daddr
          totLen := totLen })

def parseTcpHeader (bytes : List UInt8) : Checked (Option TcpHeader) :=
  if bytes.length < 20 then pure none
  else do
    let source ← be16 bytes 0
    let dest ← be16 bytes 2
    let seq ← be32 bytes 4
    let doff ← byteAt bytes 12
    let headerLen := doff / 16 * 4
    if headerLen < 20 ∨ bytes.length < headerLen then pure none
    else do
      let flags ← byteAt bytes 13
      pure (some
        { headerLen := headerLen
          source := source
          dest := dest
          seq := seq
          syn := flags.testBit 1
          fin := flags.testBit 0
          rst := flags.testBit 2 })

def portsOf (protocol : Nat) (payload : List UInt8) : Checked (Option (Nat × Nat)) :=
  if protocol = ipprotoTcp then do
    let tcp ← parseTcpHeader payload
    pure (tcp.map fun tcp => (tcp.source, tcp.dest))
  else if protocol = ipprotoUdp then
    if payload.length < 8 then pure none
    else do
      let source ← be16 payload 0
      let dest ← be16 payload 2
      pure (some (source, dest))
  else if protocol = ipprotoIcmp then pure (some (0, 0))
  else pure none

end Indexed

def parseFiveTupleInternal (bytes : List UInt8) : Checked FiveTupleResult := do
  match ← Indexed.parseIpv4Header bytes with
  | none => pure FiveTupleResult.default
  | some ip =>
      let payload ← sliceFrom bytes ip.headerLen
      match ← Indexed.portsOf ip.protocol payload with
      | none => pure FiveTupleResult.default
      | some (srcPort, dstPort) =>
          pure
            { proto := ip.protocol
              totLen := ip.totLen
              ipHeaderLen := ip.headerLen
              srcPort := srcPort
              dstPort := dstPort
              srcAddr := ip.saddr
              dstAddr := ip.daddr
              recognized := true }

/-- The table and the decision, if there is one, of a TCP packet with its headers read. -/
def FlowEngine.onHeaders (engine : FlowEngine) (bytes : List UInt8) (now : Nat) (ip : Ipv4Header)
    (tcp : TcpHeader) : Checked (FlowEngine × Option PacketDecision) :=
  let id : ConnectionId :=
    { localIp := ip.saddr
      foreignIp := ip.daddr
      localPort := tcp.source
      foreignPort := tcp.dest }
  let peerId : ConnectionId :=
    { localIp := ip.daddr
      foreignIp := ip.saddr
      localPort := tcp.dest
      foreignPort := tcp.source }
  let payloadOffset := ip.headerLen + tcp.headerLen
  let decision (kind : PacketKind) : PacketDecision :=
    { kind := kind
      connId := id
      peerConnId := peerId
      peerIsNew := false
      ipHeaderLen := ip.headerLen
      payloadOffset := payloadOffset
      syn := tcp.syn }
  match engine.tcbs.lookup id with
  | some state =>
      if tcp.fin || tcp.rst then
        pure ({ tcbs := (engine.tcbs.erase id).erase peerId },
          some { decision .closed with ipHeaderLen := 0, payloadOffset := 0 })
      else if tcp.seq < state.seq then pure (engine, some (decision .duplicate))
      else do
        let payloadLen ← sub bytes.length payloadOffset
        pure
          ({ tcbs :=
              engine.tcbs.insert id
                { state with seq := wrappingAdd tcp.seq payloadLen, lastSeen := now } },
            some (decision .data))
  | none =>
      if tcp.rst then pure (engine, none)
      else if tcp.syn then
        let own := engine.tcbs.insert id
          { seq := wrappingAdd tcp.seq 1, serverSide := true, lastSeen := now }
        let peerIsNew := !own.contains peerId
        let tcbs :=
          if peerIsNew then
            own.insert peerId { seq := 0, serverSide := false, lastSeen := now }
          else own
        pure ({ tcbs := tcbs },
          some
            { decision .newConnection with
              peerIsNew := peerIsNew, ipHeaderLen := 0, payloadOffset := 0, syn := true })
      else pure (engine, some (decision .unknownData))

def FlowEngine.onPacketInternal (engine : FlowEngine) (bytes : List UInt8) (now : Nat) :
    Checked (FlowEngine × Option PacketDecision) := do
  match ← Indexed.parseIpv4Header bytes with
  | none => pure (engine, none)
  | some ip =>
      if ip.protocol ≠ ipprotoTcp then pure (engine, none)
      else
        let tcpBytes ← sliceFrom bytes ip.headerLen
        match ← Indexed.parseTcpHeader tcpBytes with
        | none => pure (engine, none)
        | some tcp => engine.onHeaders bytes now ip tcp

/-! ### No read panics -/

namespace Indexed

variable {bytes : List UInt8} {position : Nat}

theorem byteAt_eq_ok (inside : position < bytes.length) :
    byteAt bytes position = .ok (Flow.byteAt bytes position inside) := by
  rw [byteAt, index_eq_ok inside]
  rfl

theorem be16_eq_ok (inside : position + 1 < bytes.length) :
    be16 bytes position = .ok (Flow.be16 bytes position inside) := by
  rw [be16, byteAt_eq_ok (Nat.lt_of_succ_lt inside), ok_bind, byteAt_eq_ok inside]
  rfl

theorem be32_eq_ok (inside : position + 3 < bytes.length) :
    be32 bytes position = .ok (Flow.be32 bytes position inside) := by
  rw [be32, be16_eq_ok (by omega), ok_bind, be16_eq_ok inside]
  rfl

theorem addressAt_eq_ok (inside : position + 3 < bytes.length) :
    addressAt bytes position = .ok (Flow.addressAt bytes position inside) := by
  rw [addressAt, byteAt_eq_ok (by omega), ok_bind, byteAt_eq_ok (by omega), ok_bind,
    byteAt_eq_ok (by omega), ok_bind, byteAt_eq_ok inside]
  rfl

theorem parseIpv4Header_eq (bytes : List UInt8) :
    parseIpv4Header bytes = .ok (Flow.parseIpv4Header bytes) := by
  unfold parseIpv4Header Flow.parseIpv4Header
  by_cases long : 20 ≤ bytes.length
  · rw [if_neg (Nat.not_lt.mpr long), dif_pos long, byteAt_eq_ok (by omega), ok_bind]
    dsimp only
    split
    · rfl
    · rw [byteAt_eq_ok (by omega), ok_bind, addressAt_eq_ok (by omega), ok_bind,
        addressAt_eq_ok (by omega), ok_bind, be16_eq_ok (by omega)]
      rfl
  · rw [if_pos (Nat.not_le.mp long), dif_neg long]
    rfl

theorem parseTcpHeader_eq (bytes : List UInt8) :
    parseTcpHeader bytes = .ok (Flow.parseTcpHeader bytes) := by
  unfold parseTcpHeader Flow.parseTcpHeader
  by_cases long : 20 ≤ bytes.length
  · rw [if_neg (Nat.not_lt.mpr long), dif_pos long, be16_eq_ok (by omega), ok_bind,
      be16_eq_ok (by omega), ok_bind, be32_eq_ok (by omega), ok_bind, byteAt_eq_ok (by omega),
      ok_bind]
    dsimp only
    split
    · rfl
    · rw [byteAt_eq_ok (by omega)]
      rfl
  · rw [if_pos (Nat.not_le.mp long), dif_neg long]
    rfl

theorem portsOf_eq (protocol : Nat) (payload : List UInt8) :
    portsOf protocol payload = .ok (Flow.portsOf protocol payload) := by
  unfold portsOf Flow.portsOf
  rw [parseTcpHeader_eq]
  split
  · rfl
  split
  · by_cases long : 8 ≤ payload.length
    · rw [if_neg (Nat.not_lt.mpr long), dif_pos long, be16_eq_ok (by omega), ok_bind,
        be16_eq_ok (by omega)]
      rfl
    · rw [if_pos (Nat.not_le.mp long), dif_neg long]
      rfl
  · split <;> rfl

end Indexed

theorem parseFiveTupleInternal_eq (bytes : List UInt8) :
    parseFiveTupleInternal bytes = .ok (parseFiveTuple bytes) := by
  unfold parseFiveTupleInternal parseFiveTuple
  rw [Indexed.parseIpv4Header_eq, ok_bind]
  cases ipAt : parseIpv4Header bytes with
  | none => rfl
  | some ip =>
      dsimp only
      rw [sliceFrom_eq_ok (length_of_parseIpv4Header ipAt).2, ok_bind, Indexed.portsOf_eq, ok_bind]
      cases portsOf ip.protocol (bytes.drop ip.headerLen) <;> rfl

def PacketDecision.answer (decision : PacketDecision) : Option PacketDecision :=
  if decision.kind = .ignore then none else some decision

theorem FlowEngine.onHeaders_eq (engine : FlowEngine) {bytes : List UInt8} (now : Nat)
    {ip : Ipv4Header} {tcp : TcpHeader} (fits : ip.headerLen + tcp.headerLen ≤ bytes.length) :
    engine.onHeaders bytes now ip tcp =
      .ok ((engine.onSegment (Segment.ofHeaders bytes ip tcp) now).1,
        (engine.onSegment (Segment.ofHeaders bytes ip tcp) now).2.answer) := by
  have decides := onSegment_decides engine (Segment.ofHeaders bytes ip tcp) now
  generalize engine.onSegment (Segment.ofHeaders bytes ip tcp) now = next at decides ⊢
  cases decides with
  | closed state known ends =>
      dsimp only [Segment.ofHeaders] at known ends
      rw [← Bool.or_eq_true] at ends
      simp only [FlowEngine.onHeaders, known, ends, if_true]
      rfl
  | duplicate state known noFin noRst behind =>
      dsimp only [Segment.ofHeaders] at known noFin noRst behind
      simp only [FlowEngine.onHeaders, known, noFin, noRst, behind, if_true]
      rfl
  | data state known noFin noRst ahead =>
      dsimp only [Segment.ofHeaders] at known noFin noRst ahead
      simp only [FlowEngine.onHeaders, known, noFin, noRst, Nat.not_lt.mpr ahead, if_false,
        sub_eq_ok fits]
      rfl
  | ignored unknown rst =>
      dsimp only [Segment.ofHeaders] at unknown rst
      simp only [FlowEngine.onHeaders, unknown, rst, if_true]
      rfl
  | opened unknown noRst syn =>
      dsimp only [Segment.ofHeaders] at unknown noRst syn
      have decision : (Segment.ofHeaders bytes ip tcp).syn = true := syn
      simp only [FlowEngine.onHeaders, unknown, noRst, syn, if_true, Segment.boundary,
        Segment.decision, decision]
      rfl
  | unknownData unknown noRst noSyn =>
      dsimp only [Segment.ofHeaders] at unknown noRst noSyn
      simp only [FlowEngine.onHeaders, unknown]
      rw [if_neg (by rw [noRst]; exact Bool.false_ne_true),
        if_neg (by rw [noSyn]; exact Bool.false_ne_true)]
      rfl

/-- The packet's headers are read in bounds, and its payload length does not underflow. -/
theorem FlowEngine.onPacketInternal_eq (engine : FlowEngine) (bytes : List UInt8) (now : Nat) :
    engine.onPacketInternal bytes now =
      .ok ((engine.onPacket bytes now).1, (engine.onPacket bytes now).2.answer) := by
  unfold FlowEngine.onPacketInternal FlowEngine.onPacket parseSegment
  rw [Indexed.parseIpv4Header_eq, ok_bind]
  cases ipAt : parseIpv4Header bytes with
  | none => rfl
  | some ip =>
      have ipBounds := length_of_parseIpv4Header ipAt
      dsimp only
      by_cases tcpProtocol : ip.protocol = ipprotoTcp
      · rw [if_neg (not_not_intro tcpProtocol), if_pos tcpProtocol, sliceFrom_eq_ok ipBounds.2,
          ok_bind, Indexed.parseTcpHeader_eq, ok_bind]
        cases tcpAt : parseTcpHeader (bytes.drop ip.headerLen) with
        | none => rfl
        | some tcp =>
            have tcpBounds := length_of_parseTcpHeader tcpAt
            rw [List.length_drop] at tcpBounds
            exact engine.onHeaders_eq now (by omega)
      · rw [if_pos tcpProtocol, if_neg tcpProtocol]
        rfl

/-! ### Agreement -/

def FiveTupleResult.connId (tuple : FiveTupleResult) : ConnectionId :=
  { localIp := tuple.srcAddr
    foreignIp := tuple.dstAddr
    localPort := tuple.srcPort
    foreignPort := tuple.dstPort }

def rstSet (bytes : List UInt8) (ipHeaderLen : Nat) : Bool :=
  (bytes.getD (ipHeaderLen + 13) 0).toNat.testBit 2

def PacketDecision.HasOffsets (decision : PacketDecision) : Prop :=
  decision.kind = .data ∨ decision.kind = .duplicate ∨ decision.kind = .unknownData

/-- What the tracker returns for a packet fits what the matcher reads of it. -/
structure Agrees (engine : FlowEngine) (bytes : List UInt8) (tuple : FiveTupleResult)
    (returned : Option PacketDecision) : Prop where
  decided : ∀ decision, returned = some decision →
    tuple.recognized = true ∧ tuple.proto = ipprotoTcp ∧
      decision.connId = tuple.connId ∧ decision.peerConnId = tuple.connId.peer
  silent : tuple.recognized = true → tuple.proto = ipprotoTcp →
    (returned = none ↔
      rstSet bytes tuple.ipHeaderLen = true ∧ engine.tcbs.contains tuple.connId = false)
  offsets : ∀ decision, returned = some decision → decision.HasOffsets →
    decision.ipHeaderLen = tuple.ipHeaderLen ∧
      decision.ipHeaderLen + 20 ≤ decision.payloadOffset ∧
      decision.payloadOffset ≤ bytes.length ∧
      sub bytes.length decision.payloadOffset = .ok (bytes.drop decision.payloadOffset).length

theorem rst_of_parseTcpHeader {bytes : List UInt8} {start : Nat} {tcp : TcpHeader}
    (parsed : parseTcpHeader (bytes.drop start) = some tcp) : tcp.rst = rstSet bytes start := by
  unfold parseTcpHeader at parsed
  split at parsed
  · rename_i long
    dsimp only at parsed
    split at parsed
    · cases parsed
    · cases parsed
      rw [List.length_drop] at long
      have inside : start + 13 < bytes.length := by omega
      simp only [rstSet, byteAt, List.get_eq_getElem, List.getElem_drop, List.getD,
        List.getElem?_eq_getElem inside, Option.getD_some]
  · cases parsed

theorem Agrees.of_decision {engine : FlowEngine} {bytes : List UInt8} {tuple : FiveTupleResult}
    {decision : PacketDecision} (isTcp : tuple.recognized = true ∧ tuple.proto = ipprotoTcp)
    (directions : decision.connId = tuple.connId ∧ decision.peerConnId = tuple.connId.peer)
    (heeded : rstSet bytes tuple.ipHeaderLen = false ∨ engine.tcbs.contains tuple.connId = true)
    (inside : decision.HasOffsets → decision.ipHeaderLen = tuple.ipHeaderLen ∧
      decision.ipHeaderLen + 20 ≤ decision.payloadOffset ∧
      decision.payloadOffset ≤ bytes.length) :
    Agrees engine bytes tuple (some decision) where
  decided := by
    rintro _ ⟨rfl⟩
    exact ⟨isTcp.1, isTcp.2, directions.1, directions.2⟩
  silent := by
    intro _ _
    refine ⟨nofun, fun withheld => ?_⟩
    rcases heeded with noRst | tracked
    · exact absurd (noRst.symm.trans withheld.1) Bool.false_ne_true
    · exact absurd (withheld.2.symm.trans tracked) Bool.false_ne_true
  offsets := by
    rintro _ ⟨rfl⟩ carries
    obtain ⟨sameHeader, behindHeaders, insidePacket⟩ := inside carries
    refine ⟨sameHeader, behindHeaders, insidePacket, ?_⟩
    rw [sub_eq_ok insidePacket, List.length_drop]

theorem agrees_of_headers (engine : FlowEngine) {bytes : List UInt8} (now : Nat) {ip : Ipv4Header}
    {tcp : TcpHeader} (ipAt : parseIpv4Header bytes = some ip)
    (tcpProtocol : ip.protocol = ipprotoTcp)
    (tcpAt : parseTcpHeader (bytes.drop ip.headerLen) = some tcp) :
    Agrees engine bytes (parseFiveTuple bytes)
      (engine.onSegment (Segment.ofHeaders bytes ip tcp) now).2.answer := by
  have ipBounds := length_of_parseIpv4Header ipAt
  have tcpBounds := length_of_parseTcpHeader tcpAt
  rw [List.length_drop] at tcpBounds
  have behindHeaders : ip.headerLen + 20 ≤ ip.headerLen + tcp.headerLen := by omega
  have insidePacket : ip.headerLen + tcp.headerLen ≤ bytes.length := by omega
  have rst := rst_of_parseTcpHeader tcpAt
  rw [parseFiveTuple_of_headers ipAt tcpProtocol tcpAt]
  have decides := onSegment_decides engine (Segment.ofHeaders bytes ip tcp) now
  generalize engine.onSegment (Segment.ofHeaders bytes ip tcp) now = next at decides ⊢
  cases decides with
  | closed state known ends =>
      refine .of_decision ⟨rfl, rfl⟩ ⟨rfl, rfl⟩ (Or.inr (Table.contains_of_lookup known)) ?_
      rintro (kind | kind | kind) <;> cases kind
  | duplicate state known noFin noRst behind =>
      exact .of_decision ⟨rfl, rfl⟩ ⟨rfl, rfl⟩ (Or.inr (Table.contains_of_lookup known))
        fun _ => ⟨rfl, behindHeaders, insidePacket⟩
  | data state known noFin noRst ahead =>
      exact .of_decision ⟨rfl, rfl⟩ ⟨rfl, rfl⟩ (Or.inr (Table.contains_of_lookup known))
        fun _ => ⟨rfl, behindHeaders, insidePacket⟩
  | ignored unknown isRst =>
      exact
        { decided := nofun
          silent := fun _ _ => ⟨fun _ => ⟨rst.symm.trans isRst,
            Table.not_contains_of_lookup unknown⟩, fun _ => rfl⟩
          offsets := nofun }
  | opened unknown noRst syn =>
      refine .of_decision ⟨rfl, rfl⟩ ⟨rfl, rfl⟩ (Or.inl (rst.symm.trans noRst)) ?_
      rintro (kind | kind | kind) <;> cases kind
  | unknownData unknown noRst noSyn =>
      exact .of_decision ⟨rfl, rfl⟩ ⟨rfl, rfl⟩ (Or.inl (rst.symm.trans noRst))
        fun _ => ⟨rfl, behindHeaders, insidePacket⟩

theorem agrees_onPacket (engine : FlowEngine) (bytes : List UInt8) (now : Nat) :
    Agrees engine bytes (parseFiveTuple bytes) (engine.onPacket bytes now).2.answer := by
  unfold FlowEngine.onPacket
  cases parsed : parseSegment bytes with
  | some segment =>
      obtain ⟨ip, tcp, ipAt, tcpProtocol, tcpAt, rfl⟩ := parseSegment_eq_some_iff.mp parsed
      exact agrees_of_headers engine now ipAt tcpProtocol tcpAt
  | none =>
      refine ⟨nofun, fun recognized isTcp => ?_, nofun⟩
      obtain ⟨segment, other⟩ := parseSegment_isSome_of_recognized recognized isTcp
      rw [parsed] at other
      cases other

/-- For every byte string and every table, nothing is read, sliced or subtracted out of
range by either parser, and what they return agrees. -/
theorem packetParsers_agree (engine : FlowEngine) (bytes : List UInt8) (now : Nat) :
    (∃ ip, Indexed.parseIpv4Header bytes = .ok ip) ∧
    (∃ tcp, Indexed.parseTcpHeader bytes = .ok tcp) ∧
    ∃ tuple next returned, parseFiveTupleInternal bytes = .ok tuple ∧
      engine.onPacketInternal bytes now = .ok (next, returned) ∧
      Agrees engine bytes tuple returned :=
  ⟨⟨_, Indexed.parseIpv4Header_eq bytes⟩, ⟨_, Indexed.parseTcpHeader_eq bytes⟩,
    _, _, _, parseFiveTupleInternal_eq bytes, engine.onPacketInternal_eq bytes now,
    agrees_onPacket engine bytes now⟩

end NetPolicy.Flow
