/-
The flow engine: the table of TCP flows and the classification of packets.

Every direction of a connection has its own entry with the next sequence number it
expects.  The first SYN of a flow opens both directions, the first FIN or RST of a
known flow removes both, and everything in between is data or a duplicate, by plain
numeric comparison of sequence numbers.
-/

import NetPolicy.Library.Tables
import NetPolicy.Flow.Packet

namespace NetPolicy.Flow

/-- `serverSide` is written when the entry is made and never read. -/
structure FlowState where
  seq : Nat
  serverSide : Bool
  lastSeen : Nat
deriving DecidableEq, Repr

inductive PacketKind where
  | ignore
  | newConnection
  | closed
  | data
  | duplicate
  | unknownData
deriving DecidableEq, Repr

structure PacketDecision where
  kind : PacketKind
  connId : ConnectionId
  peerConnId : ConnectionId
  peerIsNew : Bool
  ipHeaderLen : Nat
  payloadOffset : Nat
  syn : Bool
deriving DecidableEq, Repr

/-- The decision handed over for a packet the engine returns nothing for. -/
def PacketDecision.ignored : PacketDecision :=
  { kind := .ignore
    connId := { localIp := 0, foreignIp := 0, localPort := 0, foreignPort := 0 }
    peerConnId := { localIp := 0, foreignIp := 0, localPort := 0, foreignPort := 0 }
    peerIsNew := false
    ipHeaderLen := 0
    payloadOffset := 0
    syn := false }

def Segment.decision (segment : Segment) (kind : PacketKind) : PacketDecision :=
  { kind := kind
    connId := segment.id
    peerConnId := segment.id.peer
    peerIsNew := false
    ipHeaderLen := segment.ipHeaderLen
    payloadOffset := segment.payloadOffset
    syn := segment.syn }

/-- The decision about a segment that opens or closes a flow: no offsets. -/
def Segment.boundary (segment : Segment) (kind : PacketKind) (peerIsNew : Bool) :
    PacketDecision :=
  { segment.decision kind with peerIsNew := peerIsNew, ipHeaderLen := 0, payloadOffset := 0 }

structure FlowEngine where
  tcbs : Table ConnectionId FlowState

namespace FlowEngine

def new : FlowEngine := { tcbs := Table.empty }

def wrappingAdd (seq amount : Nat) : Nat := (seq + amount) % 4294967296

def ownOpened (engine : FlowEngine) (segment : Segment) (now : Nat) :
    Table ConnectionId FlowState :=
  engine.tcbs.insert segment.id
    { seq := wrappingAdd segment.seq 1, serverSide := true, lastSeen := now }

def peerIsNew (engine : FlowEngine) (segment : Segment) (now : Nat) : Bool :=
  !(engine.ownOpened segment now).contains segment.id.peer

def opened (engine : FlowEngine) (segment : Segment) (now : Nat) : FlowEngine :=
  { tcbs :=
      if engine.peerIsNew segment now then
        (engine.ownOpened segment now).insert segment.id.peer
          { seq := 0, serverSide := false, lastSeen := now }
      else engine.ownOpened segment now }

def onSegment (engine : FlowEngine) (segment : Segment) (now : Nat) :
    FlowEngine × PacketDecision :=
  match engine.tcbs.lookup segment.id with
  | some state =>
      if segment.fin || segment.rst then
        ({ tcbs := (engine.tcbs.erase segment.id).erase segment.id.peer },
          segment.boundary .closed false)
      else if segment.seq < state.seq then (engine, segment.decision .duplicate)
      else
        ({ tcbs :=
            engine.tcbs.insert segment.id
              { state with
                seq := wrappingAdd segment.seq segment.payloadLen
                lastSeen := now } },
          segment.decision .data)
  | none =>
      if segment.rst then (engine, PacketDecision.ignored)
      else if segment.syn then
        (engine.opened segment now,
          segment.boundary .newConnection (engine.peerIsNew segment now))
      else (engine, segment.decision .unknownData)

def onPacket (engine : FlowEngine) (bytes : List UInt8) (now : Nat) :
    FlowEngine × PacketDecision :=
  match parseSegment bytes with
  | none => (engine, PacketDecision.ignored)
  | some segment => engine.onSegment segment now

/-- `now.duration_since(last_seen) >= timeout`; a time in the future is no distance. -/
def isStale (now timeout : Nat) (state : FlowState) : Bool := timeout ≤ now - state.lastSeen

/-- The entries that stay; `evicts` says which are reported as evicted. -/
def evictStale (engine : FlowEngine) (now timeout : Nat) : FlowEngine :=
  { tcbs := engine.tcbs.retain fun _ state => !isStale now timeout state }

def evicts (engine : FlowEngine) (now timeout : Nat) (id : ConnectionId) : Bool :=
  (engine.tcbs.lookup id).any (isStale now timeout)

end FlowEngine

def staleConnectionTimeout : Nat := 300

/-! ### What the engine can decide -/

/-- The six ways a segment is classified, each with the table it leaves. -/
inductive Decides (engine : FlowEngine) (segment : Segment) (now : Nat) :
    FlowEngine × PacketDecision → Prop
  | closed (state : FlowState) (known : engine.tcbs.lookup segment.id = some state)
      (ends : segment.fin = true ∨ segment.rst = true) :
      Decides engine segment now
        ({ tcbs := (engine.tcbs.erase segment.id).erase segment.id.peer },
          segment.boundary .closed false)
  | duplicate (state : FlowState) (known : engine.tcbs.lookup segment.id = some state)
      (noFin : segment.fin = false) (noRst : segment.rst = false)
      (behind : segment.seq < state.seq) :
      Decides engine segment now (engine, segment.decision .duplicate)
  | data (state : FlowState) (known : engine.tcbs.lookup segment.id = some state)
      (noFin : segment.fin = false) (noRst : segment.rst = false)
      (ahead : state.seq ≤ segment.seq) :
      Decides engine segment now
        ({ tcbs :=
            engine.tcbs.insert segment.id
              { state with
                seq := FlowEngine.wrappingAdd segment.seq segment.payloadLen
                lastSeen := now } },
          segment.decision .data)
  | ignored (unknown : engine.tcbs.lookup segment.id = none) (rst : segment.rst = true) :
      Decides engine segment now (engine, PacketDecision.ignored)
  | opened (unknown : engine.tcbs.lookup segment.id = none) (noRst : segment.rst = false)
      (syn : segment.syn = true) :
      Decides engine segment now
        (engine.opened segment now,
          segment.boundary .newConnection (engine.peerIsNew segment now))
  | unknownData (unknown : engine.tcbs.lookup segment.id = none) (noRst : segment.rst = false)
      (noSyn : segment.syn = false) :
      Decides engine segment now (engine, segment.decision .unknownData)

theorem onSegment_decides (engine : FlowEngine) (segment : Segment) (now : Nat) :
    Decides engine segment now (engine.onSegment segment now) := by
  unfold FlowEngine.onSegment
  cases known : engine.tcbs.lookup segment.id with
  | some state =>
      dsimp only
      by_cases ends : segment.fin = true ∨ segment.rst = true
      · rw [if_pos (by rw [Bool.or_eq_true]; exact ends)]
        exact .closed state known ends
      · rw [if_neg (by rw [Bool.or_eq_true]; exact ends)]
        rw [not_or, Bool.not_eq_true, Bool.not_eq_true] at ends
        by_cases behind : segment.seq < state.seq
        · rw [if_pos behind]
          exact .duplicate state known ends.1 ends.2 behind
        · rw [if_neg behind]
          exact .data state known ends.1 ends.2 (Nat.le_of_not_lt behind)
  | none =>
      dsimp only
      cases rst : segment.rst with
      | true => exact .ignored known rst
      | false =>
          cases syn : segment.syn with
          | true => exact .opened known rst syn
          | false => exact .unknownData known rst syn

theorem onSegment_ids (engine : FlowEngine) (segment : Segment) (now : Nat)
    (heeded : (engine.onSegment segment now).2.kind ≠ .ignore) :
    (engine.onSegment segment now).2.connId = segment.id ∧
      (engine.onSegment segment now).2.peerConnId = segment.id.peer := by
  have decides := onSegment_decides engine segment now
  generalize engine.onSegment segment now = next at decides heeded
  cases decides with
  | ignored unknown rst => exact absurd rfl heeded
  | _ => exact ⟨rfl, rfl⟩

/-! ### Frames -/

namespace FlowEngine

theorem opened_lookup (engine : FlowEngine) (segment : Segment) (now : Nat) :
    (engine.opened segment now).tcbs.lookup segment.id =
      some { seq := wrappingAdd segment.seq 1, serverSide := true, lastSeen := now } := by
  have own : (engine.ownOpened segment now).lookup segment.id =
      some { seq := wrappingAdd segment.seq 1, serverSide := true, lastSeen := now } :=
    Table.lookup_insert_same _ _ _
  unfold opened
  dsimp only
  split
  · rename_i peerIsNew
    -- a flow that is its own peer is in the table once its SYN has been entered
    have notPeer : segment.id ≠ segment.id.peer := by
      intro same
      rw [FlowEngine.peerIsNew, ← same, Table.contains, own] at peerIsNew
      cases peerIsNew
    rw [Table.lookup_insert_ne _ _ notPeer]
    exact own
  · exact own

theorem opened_own (engine : FlowEngine) (segment : Segment) (now : Nat) :
    (engine.opened segment now).tcbs.contains segment.id = true := by
  rw [Table.contains, engine.opened_lookup segment now]
  rfl

theorem opened_other (engine : FlowEngine) (segment : Segment) (now : Nat) {id : ConnectionId}
    (notOwn : id ≠ segment.id) (notPeer : id ≠ segment.id.peer) :
    (engine.opened segment now).tcbs.lookup id = engine.tcbs.lookup id := by
  unfold opened
  dsimp only
  split
  · rw [Table.lookup_insert_ne _ _ notPeer, ownOpened, Table.lookup_insert_ne _ _ notOwn]
  · rw [ownOpened, Table.lookup_insert_ne _ _ notOwn]

theorem onSegment_other (engine : FlowEngine) (segment : Segment) (now : Nat)
    {id : ConnectionId} (notOwn : id ≠ segment.id) (notPeer : id ≠ segment.id.peer) :
    (engine.onSegment segment now).1.tcbs.lookup id = engine.tcbs.lookup id := by
  have decides := onSegment_decides engine segment now
  generalize engine.onSegment segment now = next at decides
  cases decides with
  | closed state known ends =>
      dsimp only
      rw [Table.lookup_erase_ne _ notPeer, Table.lookup_erase_ne _ notOwn]
  | duplicate state known noFin noRst behind => rfl
  | data state known noFin noRst ahead => exact Table.lookup_insert_ne _ _ notOwn
  | ignored unknown rst => rfl
  | opened unknown noRst syn => exact engine.opened_other segment now notOwn notPeer
  | unknownData unknown noRst noSyn => rfl

end FlowEngine

end NetPolicy.Flow
